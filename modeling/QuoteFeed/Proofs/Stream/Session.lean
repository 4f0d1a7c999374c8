import QuoteFeed.Proofs.Stream.Coherence

/-!
# The session that is held

An act of the user, of a timer or of the transport leaves the session that is held as it is, ends
it, or asks for the next one (`session_act`).  The events of a session are heard from then on
until its dispatch ends.  Of these, the end of the session that is held resets the link
(`deliver_end`).
-/

namespace QuoteFeed

/-- The session is over. -/
def SessionEvent.isEnd : SessionEvent → Bool
  | .closed _ | .errored _ => true
  | .opened | .message _ => false

namespace Link

/-- The session that is held stays as it is, and so does who is heard. -/
def SameSession (l l' : Link) : Prop :=
  l'.state = l.state ∧ l'.generation = l.generation ∧
    ∀ n, l'.transport.hears n = l.transport.hears n

/-- No session is held any more. -/
def SessionOver (l l' : Link) : Prop :=
  l'.state = .disconnected ∧ l'.generation = l.generation

/-- The next session was asked for, and is heard. -/
def NextSession (l l' : Link) : Prop :=
  l.state = .disconnected ∧ l'.state = .connecting ∧ l'.generation = l.generation + 1 ∧
    l'.transport.hears l'.generation

variable {l : Link}

theorem sameSession_post (ms : List Outbound) :
  l.SameSession (l.post ms)
  := ⟨rfl, rfl, Transport.hears_post _ _ ms⟩

theorem nextSession_ask (hs : l.state = .disconnected) (hg : l.generation = l.transport.connects) :
  l.NextSession l.ask
  := by
  refine ⟨hs, rfl, rfl, ?_⟩
  rw [ask, hg]
  apply Transport.hears_connect

end Link

namespace Stream

variable {s : Stream}

/-- An act that is no event of a session leaves the session that is held as it is, ends it, or asks
for the next one. -/
theorem session_act (env : Environment) (hc : s.toLink.Coherent) {a : Act}
    (ha : ∀ n e, a ≠ .event n e) :
  s.toLink.SameSession (s.act env a).toLink ∨ s.toLink.SessionOver (s.act env a).toLink ∨
    s.toLink.NextSession (s.act env a).toLink
  := by
  have same : s.toLink.SameSession s.toLink := ⟨rfl, rfl, fun _ => rfl⟩
  cases a with
  | start =>
    obtain ⟨hs, e⟩ | ⟨-, e⟩ := start_cases env s
    · rw [act, e]
      exact Or.inr (Or.inr (Link.nextSession_ask (l := s.toLink.setStopped false) hs
        hc.generation_eq))
    · rw [act, e]
      exact Or.inl same
  | stop =>
    obtain ⟨-, -, e⟩ | ⟨-, e⟩ := stop_cases env s
    · rw [act, e]
      exact Or.inl same
    · rw [act, e]
      exact Or.inr (Or.inl ⟨rfl, rfl⟩)
  | subscribe id =>
    obtain ⟨-, e⟩ | ⟨-, -, e⟩ | ⟨-, -, -, e⟩ | ⟨-, hs, -, e⟩ := subscribe_cases env s id
    · rw [act, e]
      exact Or.inl same
    · rw [act, e]
      exact Or.inl (Link.sameSession_post (l := s.toLink.want id) _)
    · rw [act, e]
      exact Or.inl same
    · rw [act, e]
      exact Or.inr (Or.inr (Link.nextSession_ask (l := s.toLink.defer id) hs hc.generation_eq))
  | unsubscribe id =>
    obtain ⟨-, e⟩ | ⟨-, -, e⟩ | ⟨-, -, -, e⟩ | ⟨-, -, -, e⟩ := unsubscribe_cases env s id
    · rw [act, e]
      exact Or.inl same
    · rw [act, e]
      exact Or.inl same
    · rw [act, e]
      exact Or.inl (Link.sameSession_post (l := s.toLink.drop id) _)
    · rw [act, e]
      exact Or.inl same
  | event n e => apply absurd rfl (ha n e)
  | ping generation due =>
    rw [act, toLink_pingTick]
    exact Or.inl ⟨rfl, rfl, Transport.hears_post _ _ _⟩
  | lose n => exact Or.inl ⟨rfl, rfl, fun k => Transport.hears_modify _ n k fun _ => rfl⟩
  | outage broken => exact Or.inl same

/-- The end of the session that is held resets the link. -/
theorem deliver_end (env : Environment) {n : Nat} {e : SessionEvent} (he : e.isEnd)
    (hh : s.transport.hears n) (hn : s.isCurrent n) :
  (s.deliver env n e).toLink = s.toLink.reset.silence n
  := by
  have ended (reason : String) :
      (((s.closed n reason).endDispatch n).note (.dispatchEnded n)).toLink =
        s.toLink.reset.silence n := by
    rw [closed, if_pos hn]
    rfl
  rw [deliver, if_pos hh]
  cases e with
  | closed reason => apply ended
  | errored reason => apply ended
  | opened => contradiction
  | message text => contradiction

/-- An event that neither opens the link nor ends it silences its session at most. -/
theorem deliver_idle (env : Environment) {n : Nat} {e : SessionEvent}
    (ho : ¬ (e = .opened ∧ s.awaits n)) (he : ¬ (e.isEnd ∧ s.transport.hears n ∧ s.isCurrent n)) :
  (s.deliver env n e).toLink = s.toLink ∨ (s.deliver env n e).toLink = s.toLink.silence n
  := by
  by_cases hh : s.transport.hears n
  · have stale (hi : e.isEnd) (reason : String) :
        (((s.closed n reason).endDispatch n).note (.dispatchEnded n)).toLink =
          s.toLink.silence n := by
      rw [closed, if_neg fun hn => he ⟨hi, hh, hn⟩]
      rfl
    rw [deliver, if_pos hh]
    cases e with
    | opened =>
      obtain ⟨hg, hs, -⟩ | ⟨-, e⟩ := opened_cases env s n
      · apply absurd ⟨rfl, hh, hg, hs⟩ ho
      · exact Or.inl e
    | message text => apply received_cases
    | closed reason => exact Or.inr (stale rfl reason)
    | errored reason => exact Or.inr (stale rfl reason)
  · left
    rw [deliver, if_neg hh]

end Stream

end QuoteFeed

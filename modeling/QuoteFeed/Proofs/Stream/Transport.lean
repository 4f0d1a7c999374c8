import QuoteFeed.Stream.Transport

/-!
# Messages on the sessions of a transport

`Transport.post` offers messages to the session whose handle is held: the session takes them all
or none.  Asking for a session, closing one and losing one leave the messages alone, and a session
that was ended stays ended.
-/

namespace QuoteFeed.Transport

/-- The transport after messages were offered to the session that is held. -/
def post (t : Transport) : Option Nat → List Outbound → Transport
  | none, _ => t
  | some n, ms => if t.accepts n then { t with sent := t.sent ++ ms.map (⟨n, ·⟩) } else t

variable (t : Transport) (handle : Option Nat) (ms ks : List Outbound) (n k : Nat)

/-! ### Offering messages -/

@[simp]
theorem sessions_post :
  (t.post handle ms).sessions = t.sessions
  := by
  cases handle with
  | none => rfl
  | some n =>
    rw [post]
    split
    · rfl
    · rfl

@[simp]
theorem broken_post :
  (t.post handle ms).broken = t.broken
  := by
  cases handle with
  | none => rfl
  | some n =>
    rw [post]
    split
    · rfl
    · rfl

@[simp]
theorem session?_post :
  (t.post handle ms).session? n = t.session? n
  := by
  rw [session?, session?, sessions_post]

@[simp]
theorem connects_post :
  (t.post handle ms).connects = t.connects
  := by
  rw [connects, connects, sessions_post]

@[simp]
theorem isOpen_post :
  (t.post handle ms).isOpen n = t.isOpen n
  := by
  rw [isOpen, isOpen, session?_post]

@[simp]
theorem accepts_post :
  (t.post handle ms).accepts n = t.accepts n
  := by
  rw [accepts, accepts, broken_post, isOpen_post]

@[simp]
theorem post_nil :
  t.post handle [] = t
  := by
  cases handle with
  | none => rfl
  | some n => simp [post]

/-- Messages that are offered one after the other are offered at once. -/
theorem post_post :
  (t.post handle ms).post handle ks = t.post handle (ms ++ ks)
  := by
  cases handle with
  | none => rfl
  | some n =>
    by_cases h : t.accepts n
    · have h' : (t.post (some n) ms).accepts n := by rw [accepts_post, h]
      rw [post, if_pos h', post, if_pos h, post, if_pos h]
      simp
    · have h' : ¬ (t.post (some n) ms).accepts n := by rw [accepts_post]; exact h
      rw [post, if_neg h', post, if_neg h, post, if_neg h]

/-- The session that is held takes what it is offered, if it takes messages. -/
theorem sent_post :
  (t.post (some n) ms).sent = t.sent ++ if t.accepts n then ms.map (⟨n, ·⟩) else []
  := by
  rw [post]
  split
  · rfl
  · rw [List.append_nil]

/-- Only the session that is held takes messages, and only if it takes any. -/
theorem sentOn_post :
  (t.post (some n) ms).sentOn k =
    if k = n ∧ t.accepts n then t.sentOn k ++ ms else t.sentOn k
  := by
  rw [sentOn, sent_post]
  by_cases h : t.accepts n
  · rw [if_pos h]
    by_cases hk : k = n
    · subst hk
      simp [sentOn, h, List.filter_map, Function.comp_def]
    · have hk' : ¬ n = k := fun e => hk e.symm
      simp [sentOn, hk, hk', List.filter_map, Function.comp_def]
  · simp [sentOn, h]

/-! ### Changing a session -/

variable (f : Session → Session)

@[simp]
theorem sent_modify :
  (t.modify n f).sent = t.sent
  := by
  rw [modify]
  split
  · rfl
  · rfl

@[simp]
theorem broken_modify :
  (t.modify n f).broken = t.broken
  := by
  rw [modify]
  split
  · rfl
  · rfl

@[simp]
theorem connects_modify :
  (t.modify n f).connects = t.connects
  := by
  rw [modify]
  split
  · rfl
  · simp [connects]

@[simp]
theorem sentOn_modify :
  (t.modify n f).sentOn k = t.sentOn k
  := by
  rw [sentOn, sentOn, sent_modify]

/-- A change of one session leaves the others as they are. -/
theorem session?_modify :
  (t.modify n f).session? k = if k = n then (t.session? k).map f else t.session? k
  := by
  rw [modify, session?, session?]
  by_cases hk : k = 0
  · simp [hk]
  · by_cases hn : n = 0
    · simp [hn, hk]
    · have h : n - 1 = k - 1 ↔ k = n := by omega
      rw [if_neg hn, if_neg hk, if_neg hk, List.getElem?_modify]
      by_cases e : k = n
      · simp [e]
      · simp [h, e]

/-- A session that is open after a change was open before, if the change opens none. -/
theorem isOpen_of_modify {t : Transport} {n k : Nat} {f : Session → Session}
    (hf : ∀ s, (f s).isOpen → s.isOpen) (h : (t.modify n f).isOpen k) :
  t.isOpen k
  := by
  rw [isOpen, session?_modify] at h
  rw [isOpen]
  cases hs : t.session? k with
  | none => simp [hs] at h
  | some s =>
    by_cases hk : k = n
    · rw [if_pos hk, hs] at h
      apply hf s h
    · rw [if_neg hk, hs] at h
      apply h

/-- Closing a session opens none. -/
theorem isOpen_of_close {t : Transport} {n k : Nat} (h : (t.close n).isOpen k) :
  t.isOpen k
  := isOpen_of_modify (by simp [Session.isOpen]) h

/-- Losing a session opens none. -/
theorem isOpen_of_lose {t : Transport} {n k : Nat} (h : (t.lose n).isOpen k) :
  t.isOpen k
  := isOpen_of_modify (by simp [Session.isOpen]) h

/-- A session whose events are no longer heard stays open. -/
theorem isOpen_of_ignore {t : Transport} {n k : Nat} (h : (t.ignore n).isOpen k) :
  t.isOpen k
  := isOpen_of_modify (by simp [Session.isOpen]) h

/-! ### Closing the session that is held -/

/-- The transport after the handle that is held was closed. -/
def hangUp (t : Transport) : Option Nat → Transport
  | none => t
  | some n => t.close n

@[simp]
theorem broken_hangUp :
  (t.hangUp handle).broken = t.broken
  := by
  cases handle with
  | none => rfl
  | some n => apply broken_modify

@[simp]
theorem connects_hangUp :
  (t.hangUp handle).connects = t.connects
  := by
  cases handle with
  | none => rfl
  | some n => apply connects_modify

@[simp]
theorem sent_hangUp :
  (t.hangUp handle).sent = t.sent
  := by
  cases handle with
  | none => rfl
  | some n => apply sent_modify

@[simp]
theorem sentOn_hangUp :
  (t.hangUp handle).sentOn k = t.sentOn k
  := by
  rw [sentOn, sentOn, sent_hangUp]

theorem isOpen_of_hangUp {t : Transport} {handle : Option Nat} {k : Nat}
    (h : (t.hangUp handle).isOpen k) :
  t.isOpen k
  := by
  cases handle with
  | none => apply h
  | some n => apply isOpen_of_close h

/-! ### Who is heard -/

@[simp]
theorem hears_post :
  (t.post handle ms).hears n = t.hears n
  := by
  rw [hears, hears, session?_post]

/-- Who is heard stays the same if a session changes in another way. -/
theorem hears_modify {f : Session → Session} (hf : ∀ s, (f s).heard = s.heard) :
  (t.modify n f).hears k = t.hears k
  := by
  rw [hears, hears, session?_modify]
  split
  · rw [Option.map_map]
    congr 2
    funext s
    apply hf
  · rfl

/-- A session is silenced alone. -/
theorem hears_ignore :
  (t.ignore n).hears k = if k = n then false else t.hears k
  := by
  rw [ignore, hears, hears, session?_modify]
  by_cases h : k = n
  · cases t.session? k with
    | none => simp [h]
    | some s => simp [h]
  · simp [h]

/-- A session that is heard was asked for. -/
theorem le_connects (h : t.hears n) :
  n ≤ t.connects
  := by
  rw [hears, session?] at h
  split at h
  · simp at h
  · cases hs : t.sessions[n - 1]? with
    | none => simp [hs] at h
    | some _ =>
      have hlt := (List.getElem?_eq_some_iff.1 hs).1
      rw [connects]
      omega

/-! ### Asking for a session -/

/-- A session that was just asked for is heard. -/
theorem hears_connect :
  t.connect.hears (t.connects + 1)
  := by
  simp [hears, session?, connect, connects]

@[simp]
theorem connects_connect :
  t.connect.connects = t.connects + 1
  := by
  simp [connects, connect]

end QuoteFeed.Transport

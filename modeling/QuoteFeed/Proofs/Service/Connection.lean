import QuoteFeed.Proofs.Service.Moves
import QuoteFeed.Proofs.Stream.Ledger
import QuoteFeed.Proofs.Stream.Sync

/-!
# The connection of the service

Whatever happens to a service happens to its stream as a run of the stream, so what holds of a
stream after every run holds of the stream of a service (`exists_stream_run`).  Most actions of the
service are calls or acts of its timers: no session speaks, no time passes, and the cache stays as
it is (`internalRun_step`).
-/

namespace QuoteFeed.Service

variable {env : Environment} {s s' : Service}

/-! ### Internal runs -/

/-- The stream of one service becomes that of another by internal actions. -/
def InternalRun (env : Environment) (s s' : Service) : Prop :=
  ∃ bs : List Stream.Action, (∀ b ∈ bs, b.Internal) ∧ s'.toStream = s.toStream.run env bs

namespace InternalRun

/-- A property of links is kept if every act keeps it that is no event of a session. -/
theorem toLink_induction {P : Link → Prop} (h : InternalRun env s s') (h₀ : P s.toLink)
    (hact : ∀ (s : Stream) (a : Stream.Act), (∀ n e, a ≠ .event n e) → P s.toLink →
      P (s.act env a).toLink) :
  P s'.toLink
  := by
  obtain ⟨bs, hb, e⟩ := h
  rw [e]
  apply Stream.toLink_run_induction bs h₀
  intro s a ha
  apply hact
  rintro n e rfl
  exact hb _ ha

/-- The time and the cache stay as they are. -/
theorem keeps (h : InternalRun env s s') :
  s'.now = s.now ∧ s'.cache = s.cache
  := by
  obtain ⟨bs, hb, e⟩ := h
  rw [e]
  clear e
  induction bs using List.reverseRecOn with
  | nil => exact ⟨rfl, rfl⟩
  | append_singleton bs b ih =>
    rw [List.forall_mem_append, List.forall_mem_singleton] at hb
    obtain ⟨hn, hc⟩ := ih hb.1
    obtain ⟨hn', hc'⟩ := Stream.keeps_internal (s := s.toStream.run env bs) hb.2
    rw [Stream.run_concat]
    exact ⟨hn'.trans hn, hc'.trans hc⟩

end InternalRun

/-! ### Actions of the service -/

/-- A change of the catalog and of the report is internal. -/
theorem exists_internal_withDesk {t : Stream} {d : Desk} (h : t.toDesk.SameQuotes d) :
  ∃ bs : List Stream.Action, (∀ b ∈ bs, b.Internal) ∧ { t with toDesk := d } = t.run env bs
  := by
  use [.catalog d.catalog, .report d.report]
  constructor
  · simp [Stream.Action.Internal]
  · obtain ⟨now, catalog, cache, keepalive, report⟩ := d
    obtain ⟨rfl, rfl, rfl⟩ := h
    rfl

/-- A synchronisation consists of internal actions. -/
theorem exists_internal_sync (t : Stream) (wanted : IdSet) :
  ∃ bs : List Stream.Action, (∀ b ∈ bs, b.Internal) ∧ (t.sync env wanted).2 = t.run env bs
  := by
  have h : (t.sync env wanted).2 = t ∨ ∃ r, (t.sync env wanted).2 =
      ((Changes.between wanted t.subscribed).calls.foldl (Stream.call env) t).step env (.report r) := by
    rw [Stream.sync]
    dsimp only
    split
    · exact Or.inl rfl
    · exact Or.inr ⟨_, rfl⟩
  obtain h | ⟨r, h⟩ := h
  · exact ⟨[], by simp, h⟩
  · use (Changes.between wanted t.subscribed).calls.map (fun c => .act c.act) ++ [.report r]
    constructor
    · intro a ha
      rw [List.mem_append, List.mem_map, List.mem_singleton] at ha
      obtain ⟨c, -, rfl⟩ | rfl := ha
      · cases c with
        | subscribe id => trivial
        | unsubscribe id => trivial
      · trivial
    · rw [h, Stream.run_concat, Stream.run_calls]

/-- A move of the service consists of internal actions of the stream. -/
theorem exists_internal_of_move {t t' : Stream} (h : Move env t t') :
  ∃ bs : List Stream.Action, (∀ b ∈ bs, b.Internal) ∧ t' = t.run env bs
  := by
  cases h with
  | start => exact ⟨[.act .start], by simp [Stream.Action.Internal], rfl⟩
  | stop => exact ⟨[.act .stop], by simp [Stream.Action.Internal], rfl⟩
  | ping generation due =>
    exact ⟨[.act (.ping generation due)], by simp [Stream.Action.Internal], rfl⟩
  | sync wanted => exact exists_internal_sync t wanted
  | beginRefresh => exact exists_internal_withDesk t.toDesk.sameQuotes_beginRefresh
  | endRefresh answer => exact exists_internal_withDesk (t.toDesk.sameQuotes_endRefresh env answer)
  | releaseRefresh => exact exists_internal_withDesk ⟨rfl, rfl, rfl⟩
  | note n => exact ⟨[.report (t.report.note n)], by simp [Stream.Action.Internal], rfl⟩

/-- Moves consist of internal actions of the stream. -/
theorem exists_internal_of_moves {t t' : Stream} (h : Moves env t t') :
  ∃ bs : List Stream.Action, (∀ b ∈ bs, b.Internal) ∧ t' = t.run env bs
  := by
  induction h with
  | refl => exact ⟨[], by simp, rfl⟩
  | tail _ hm ih =>
    obtain ⟨bs, hb, rfl⟩ := ih
    obtain ⟨cs, hc, rfl⟩ := exists_internal_of_move hm
    use bs ++ cs
    constructor
    · rw [List.forall_mem_append]
      exact ⟨hb, hc⟩
    · rw [Stream.run_append]

theorem internalRun_of_moves (h : Moves env s.toStream s'.toStream) :
  InternalRun env s s'
  := exists_internal_of_moves h

theorem internalRun_syncDemand (env : Environment) (s : Service) (ms : List MarketId) :
  InternalRun env s (s.syncDemand env ms).2
  := internalRun_of_moves (moves_syncDemand env s ms)

theorem internalRun_quotations (env : Environment) (s : Service) (quote : String)
    (bases : List String) :
  InternalRun env s (s.quotations env quote bases).2
  := internalRun_of_moves (moves_quotations env s quote bases)

theorem internalRun_releaseIdle (env : Environment) (s : Service) :
  InternalRun env s (s.releaseIdle env).2
  := internalRun_of_moves (moves_releaseIdle env s)

/-- All actions of the service that are not direct act on the stream by internal actions. -/
theorem internalRun_step (env : Environment) {a : Action} (h : a.direct? s = none) :
  InternalRun env s (s.step env a)
  := internalRun_of_moves (moves_step env h)

/-! ### Runs of the service -/

/-- In the run sessions refuse messages only after they were ended. -/
def Reliable (as : List Action) : Prop :=
  .connection (.outage true) ∉ as

/-- Every run of the service is a run of its stream. -/
theorem exists_stream_run (env : Environment) (markets : List Market) (as : List Action) :
  ∃ bs, ((initial env markets).run env as).toStream = Stream.initial.run env bs ∧
    (Reliable as → Stream.Reliable bs)
  := by
  induction as using List.reverseRecOn with
  | nil => exact ⟨[], rfl, fun _ => List.not_mem_nil⟩
  | append_singleton as a ih =>
    obtain ⟨bs, e, hr⟩ := ih
    rw [run_concat, Reliable, List.mem_append, not_or, List.mem_singleton]
    cases h : a.direct? ((initial env markets).run env as) with
    | some b =>
      use bs ++ [b]
      constructor
      · rw [toStream_step h, e, Stream.run_concat]
      · rintro ⟨ha, ho⟩
        rw [Stream.Reliable, List.mem_append, not_or, List.mem_singleton]
        use hr ha
        rintro rfl
        cases a with
        | connection a =>
          obtain rfl := Stream.Action.act.inj (Option.some.inj h)
          exact ho rfl
        | purge => simp [Action.direct?] at h
        | elapse d => simp [Action.direct?] at h
        | _ => contradiction
    | none =>
      obtain ⟨cs, hc, e'⟩ := internalRun_step env h
      use bs ++ cs
      constructor
      · rw [e', e, Stream.run_append]
      · rintro ⟨ha, -⟩
        rw [Stream.Reliable, List.mem_append, not_or]
        use hr ha
        intro ho
        exact hc _ ho

/-- The link of the service is coherent after every run. -/
theorem coherent_run (env : Environment) (markets : List Market) (as : List Action) :
  ((initial env markets).run env as).toLink.Coherent
  := by
  obtain ⟨bs, e, -⟩ := exists_stream_run env markets as
  rw [e]
  apply Stream.coherent_run

/-- Its ledger is kept by every run on a transport that works. -/
theorem ledger_run (env : Environment) (markets : List Market) {as : List Action}
    (h : Reliable as) :
  ((initial env markets).run env as).toLink.Ledger
  := by
  obtain ⟨bs, e, hr⟩ := exists_stream_run env markets as
  rw [e]
  apply Stream.ledger_run env (hr h)

end QuoteFeed.Service

import QuoteFeed.Proofs.Stream.Run

/-!
# Runs on time

In a run on time (`Stream.Timely`) the clock stops when a ping is due, until the timer has acted,
and the timer that is held acts at no other time.  The timers of other sessions may act at any
time.

What is recorded of the actions of a run, each before it happens, is a list beside the state
(`Stream.log`).
-/

namespace QuoteFeed.Stream

/-- The action comes at its time: the clock does not go back, nor beyond the next ping, and the
timer that is held acts when it is due. -/
def Prompt (s : Stream) : Action → Prop
  | .time now => s.now ≤ now ∧ ∀ due ∈ s.pingDue, now ≤ due
  | .act (.ping generation due) =>
    ∀ p ∈ s.pinger, p.generation = generation → p.due = some due ∧ due = s.now
  | .act .start | .act .stop | .act (.subscribe _) | .act (.unsubscribe _) | .act (.event _ _)
  | .act (.lose _) | .act (.outage _) | .catalog _ | .purge | .report _ => True

instance (s : Stream) (a : Action) : Decidable (s.Prompt a) :=
  match a with
  | .time now => inferInstanceAs (Decidable (s.now ≤ now ∧ ∀ due ∈ s.pingDue, now ≤ due))
  | .act (.ping generation due) =>
    inferInstanceAs (Decidable
      (∀ p ∈ s.pinger, p.generation = generation → p.due = some due ∧ due = s.now))
  | .act .start | .act .stop | .act (.subscribe _) | .act (.unsubscribe _) | .act (.event _ _)
  | .act (.lose _) | .act (.outage _) | .catalog _ | .purge | .report _ =>
    inferInstanceAs (Decidable True)

variable (env : Environment)

/-- Every action of the run comes at its time. -/
def Timely (s : Stream) : List Action → Prop
  | [] => True
  | a :: as => s.Prompt a ∧ (s.step env a).Timely as

instance decidableTimely (s : Stream) (as : List Action) : Decidable (s.Timely env as) :=
  match as with
  | [] => inferInstanceAs (Decidable True)
  | a :: as =>
    have := decidableTimely (s.step env a) as
    inferInstanceAs (Decidable (s.Prompt a ∧ (s.step env a).Timely env as))

/-- What is recorded of the actions of a run. -/
def log {α : Type} (record : Stream → Action → List α) (s : Stream) : List Action → List α
  | [] => []
  | a :: as => record s a ++ (s.step env a).log record as

variable {env} {s : Stream}

theorem timely_append {as bs : List Action} :
  s.Timely env (as ++ bs) ↔ s.Timely env as ∧ (s.run env as).Timely env bs
  := by
  induction as generalizing s with
  | nil => simp [Timely, run]
  | cons a as ih => rw [List.cons_append, Timely, ih, Timely, and_assoc, run, run, List.foldl_cons]

theorem timely_concat {as : List Action} {a : Action} :
  s.Timely env (as ++ [a]) ↔ s.Timely env as ∧ (s.run env as).Prompt a
  := by
  rw [timely_append, Timely, Timely, and_true]

/-- The clock does not go back. -/
theorem Prompt.now_le {a : Action} (h : s.Prompt a) :
  s.now ≤ (s.step env a).now
  := by
  cases a with
  | act a => exact Nat.le_of_eq (congrArg Prod.fst (setting_act env s a)).symm
  | time now => apply h.1
  | catalog c => apply Nat.le_refl
  | purge => apply Nat.le_refl
  | report r => apply Nat.le_refl

theorem log_append {α : Type} (record : Stream → Action → List α) (as bs : List Action) :
  s.log env record (as ++ bs) = s.log env record as ++ (s.run env as).log env record bs
  := by
  induction as generalizing s with
  | nil => rfl
  | cons a as ih => rw [List.cons_append, log, ih, log, List.append_assoc, run, run,
      List.foldl_cons]

theorem log_concat {α : Type} (record : Stream → Action → List α) (as : List Action) (a : Action) :
  s.log env record (as ++ [a]) = s.log env record as ++ record (s.run env as) a
  := by
  rw [log_append, log, log, List.append_nil]

end QuoteFeed.Stream

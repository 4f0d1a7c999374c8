import Mathlib.Data.List.Induction
import QuoteFeed.Proofs.Stream.Link

/-!
# Runs of a stream

What can happen to a stream: an act on its connection (`Stream.Act`), by its user, by a session, by
a timer or by the transport, or a change of what surrounds the connection (`Stream.Action`).  A run
is a list of such actions from the initial stream on, in any order: sessions of every generation
may speak at any time, and so may their timers.  An action that asks for a session fails if there is
no queue for its events, and so does a run with such an action (`Stream.run?`).
-/

namespace QuoteFeed

/-- The environment with the default settings, where the wall clock stands still. -/
def Environment.standard : Environment :=
  { settings := .defaults "wss://stream.exchange.test" "https://exchange.test/markets"
    wall := fun _ => .epoch
    uptime := id }

namespace Stream

/-- What happens to the connection of a stream. -/
inductive Act where
  | start
  | stop
  | subscribe (id : MarketId)
  | unsubscribe (id : MarketId)
  /-- A session reports an event. -/
  | event (session : Nat) (e : SessionEvent)
  /-- The timer that pings a generation acts, which was due at `due`. -/
  | ping (generation due : Nat)
  /-- The other side ends a session, which takes no more messages from then on. -/
  | lose (session : Nat)
  /-- The transport as a whole takes no messages, or takes them again. -/
  | outage (broken : Bool)
  deriving DecidableEq

/-- What happens to a stream. -/
inductive Action where
  /-- Something happens to its connection. -/
  | act (a : Act)
  /-- The clock shows a time. -/
  | time (now : Nat)
  /-- The catalog changes. -/
  | catalog (c : Catalog)
  /-- Expired quotes are removed. -/
  | purge
  /-- Something else is reported. -/
  | report (r : Report)

variable (env : Environment) (s : Stream)

/-- The stream after an act on its connection. -/
def act : Act → Stream
  | .start => s.start env
  | .stop => s.stop env
  | .subscribe id => s.subscribe env id
  | .unsubscribe id => s.unsubscribe env id
  | .event session e => s.deliver env session e
  | .ping generation due => s.pingTick env generation due
  | .lose session => { s with transport := s.transport.lose session }
  | .outage broken => { s with transport := { s.transport with broken } }

/-- No act changes the time or the catalog. -/
theorem setting_act (a : Act) :
  (s.act env a).toDesk.setting = s.toDesk.setting
  := by
  cases a with
  | start => apply congrArg Desk.setting (books_start env s)
  | stop => apply congrArg Desk.setting (books_stop env s)
  | subscribe id => apply congrArg Desk.setting (books_subscribe env s id)
  | unsubscribe id => apply congrArg Desk.setting (books_unsubscribe env s id)
  | event n e => apply setting_deliver
  | ping generation due => apply setting_pingTick
  | lose n => rfl
  | outage broken => rfl

/-- The stream after an action. -/
def step : Action → Stream
  | .act a => s.act env a
  | .time now => { s with now }
  | .catalog catalog => { s with catalog }
  | .purge => { s with cache := s.cache.purge s.now }
  | .report report => { s with report }

/-- The stream after actions. -/
def run (as : List Action) : Stream :=
  as.foldl (step env) s

/-- From one stream to the next a session was asked for, and there is no queue for its events. -/
def Stalls (s' : Stream) : Prop :=
  s.generation < s'.generation ∧ ¬ IsQueue env.settings.stream.eventBuffer

instance (s' : Stream) : Decidable (Stalls env s s') :=
  inferInstanceAs (Decidable (_ ∧ _))

/-- The stream after an action, unless that fails for want of a queue. -/
def step? (a : Action) : Option Stream :=
  if Stalls env s (s.step env a) then none else some (s.step env a)

/-- The stream after actions, unless one of them fails. -/
def run? (as : List Action) : Option Stream :=
  as.foldlM (step? env) s

variable {env s}

theorem run_append (as bs : List Action) :
  s.run env (as ++ bs) = (s.run env as).run env bs
  := List.foldl_append

theorem run_concat (as : List Action) (a : Action) :
  s.run env (as ++ [a]) = (s.run env as).step env a
  := by
  rw [run_append]
  rfl

/-- Where there is a queue, no action fails. -/
theorem step?_eq_some (hq : IsQueue env.settings.stream.eventBuffer) (a : Action) :
  s.step? env a = some (s.step env a)
  := if_neg fun h => h.2 hq

/-- Nor does a run. -/
theorem run?_eq_some (hq : IsQueue env.settings.stream.eventBuffer) (as : List Action) :
  s.run? env as = some (s.run env as)
  := by
  have h : step? env = fun s a => some (s.step env a) := by
    funext s a
    apply step?_eq_some hq
  rw [run?, h]
  apply List.foldlM_pure

/-- A call or a timer causes the action: no session speaks, no time passes, and the cache is not
purged. -/
def Action.Internal : Action → Prop
  | .act (.event _ _) | .act (.lose _) | .act (.outage _) | .time _ | .purge => False
  | _ => True

/-- An internal action leaves the time and the cache as they are. -/
theorem keeps_internal {a : Action} (ha : a.Internal) :
  (s.step env a).now = s.now ∧ (s.step env a).cache = s.cache
  := by
  have books {s' : Stream} (h : s'.toDesk.books = s.toDesk.books) :
      s'.now = s.now ∧ s'.cache = s.cache := by
    constructor
    · apply congrArg Desk.now h
    · apply congrArg Desk.cache h
  cases a with
  | act a =>
    cases a with
    | start => apply books (books_start env s)
    | stop => apply books (books_stop env s)
    | subscribe id => apply books (books_subscribe env s id)
    | unsubscribe id => apply books (books_unsubscribe env s id)
    | ping n due =>
      obtain ⟨_, h⟩ := books_pingTick env s n due
      constructor
      · apply congrArg Desk.now h
      · apply congrArg Desk.cache h
    | _ => contradiction
  | catalog c => exact ⟨rfl, rfl⟩
  | report r => exact ⟨rfl, rfl⟩
  | _ => contradiction

/-- A property of links that holds at first and is kept by every act holds after every run. -/
theorem toLink_run_induction {P : Link → Prop} (as : List Action) (h₀ : P s.toLink)
    (hact : ∀ (s : Stream) (a : Act), Action.act a ∈ as → P s.toLink → P (s.act env a).toLink) :
  P (s.run env as).toLink
  := by
  induction as using List.reverseRecOn with
  | nil => apply h₀
  | append_singleton as a ih =>
    rw [run_concat]
    have h := ih fun s b hb => hact s b (List.mem_append_left _ hb)
    cases a with
    | act a => apply hact _ a (by simp) h
    | time now => apply h
    | catalog c => apply h
    | purge => apply h
    | report r => apply h

end Stream

end QuoteFeed

import Mathlib.Logic.Relation
import QuoteFeed.Proofs.Service.Run

/-!
# What a service does to its stream

What happens to a service happens to its stream directly, as an act on the connection, as time that
passes or as quotes that expire (`Action.direct?`), or else the service makes a few kinds of moves:
the stream is started, stopped, synchronised or pinged, a refresh of its catalog begins, ends or is
given up, and notes are made (`Service.Move`).  Every other action is some of these moves, one after
the other (`moves_step`), so that what each of them keeps is kept by the service.
-/

namespace QuoteFeed.Service

/-- One move of a stream that a service makes. -/
inductive Move (env : Environment) : Stream → Stream → Prop where
  | start (s : Stream) : Move env s (s.start env)
  | stop (s : Stream) : Move env s (s.stop env)
  | ping (s : Stream) (generation due : Nat) : Move env s (s.pingTick env generation due)
  | sync (s : Stream) (wanted : IdSet) : Move env s (s.sync env wanted).2
  | beginRefresh (s : Stream) : Move env s { s with toDesk := s.toDesk.beginRefresh.2 }
  | endRefresh (s : Stream) (answer : Except FetchError (List Market)) :
      Move env s { s with toDesk := (s.toDesk.endRefresh env answer).2 }
  | releaseRefresh (s : Stream) : Move env s { s with toDesk := s.toDesk.releaseRefresh }
  | note (s : Stream) (n : Note) : Move env s (s.note n)

/-- Moves one after the other. -/
abbrev Moves (env : Environment) : Stream → Stream → Prop :=
  Relation.ReflTransGen (Move env)

variable (env : Environment) (s : Service)

theorem moves_start :
  Moves env s.toStream (s.start env).toStream
  := by
  rw [start]
  split
  · exact .refl
  · exact .tail (.single (.start s.toStream)) (.note _ _)

theorem moves_stop :
  Moves env s.toStream (s.stop env).toStream
  := by
  have h : Moves env s.toStream (s.toStream.stop env) := .single (.stop s.toStream)
  rw [stop]
  split
  · exact h.tail (.note _ _)
  · exact h

theorem moves_sync (wanted : IdSet) :
  Moves env s.toStream (s.sync env wanted).2.toStream
  := .single (.sync s.toStream wanted)

theorem moves_syncDemand (ms : List MarketId) :
  Moves env s.toStream (s.syncDemand env ms).2.toStream
  := .single (.sync s.toStream _)

theorem moves_quotations (quote : String) (bases : List String) :
  Moves env s.toStream (s.quotations env quote bases).2.toStream
  := by
  rw [quotations]
  dsimp only
  split
  · exact .single (.note s.toStream _)
  · apply moves_syncDemand

theorem moves_releaseIdle :
  Moves env s.toStream (s.releaseIdle env).2.toStream
  := by
  have h := moves_syncDemand env s []
  rw [releaseIdle]
  dsimp only
  split
  · exact h
  · exact h.tail (.note _ _)

theorem moves_refresh :
  Moves env s.toStream (s.refresh env).2.toStream
  := by
  have h : Moves env s.toStream { s.toStream with toDesk := s.toDesk.beginRefresh.2 } :=
    .single (.beginRefresh s.toStream)
  rw [refresh]
  dsimp only
  split
  · exact h.tail (.endRefresh _ s.source.answer)
  · exact h

theorem moves_refreshTick :
  Moves env s.toStream (s.refreshTick env).toStream
  := by
  have h := moves_refresh env s
  rw [← snd_refreshCycle] at h
  exact h

theorem moves_beginRefresh :
  Moves env s.toStream s.beginRefresh.toStream
  := by
  have h : Moves env s.toStream { s.toStream with toDesk := s.toDesk.beginRefresh.2 } :=
    .single (.beginRefresh s.toStream)
  rw [beginRefresh]
  dsimp only
  split
  · exact h
  · exact h

theorem moves_settleCalls (calls : List RefreshCall) (s : Stream) :
  Moves env s { s with toDesk := (settleCalls env calls s.toDesk).2 }
  := by
  induction calls with
  | nil => exact .refl
  | cons c calls ih =>
    cases c with
    | done outcome => exact ih
    | waiting answer => exact ih.tail (.endRefresh _ answer)

theorem moves_finishRefresh :
  Moves env s.toStream (s.finishRefresh env).2.toStream
  := by
  have h := moves_settleCalls env s.calls s.toStream
  rw [finishRefresh]
  dsimp only
  split
  · exact h
  · exact h

theorem moves_abortRefresh :
  Moves env s.toStream s.abortRefresh.toStream
  := by
  rw [abortRefresh]
  split
  · exact .single (.releaseRefresh s.toStream)
  · exact .refl
  · exact .refl

theorem moves_pingTick (due : Nat) :
  Moves env s.toStream (s.pingTick env due).toStream
  := by
  change Moves env s.toStream (s.toStream.firePinger env due)
  rw [Stream.firePinger]
  split
  · exact .refl
  · exact .single (.ping s.toStream _ due)

/-! ### Actions -/

variable {env s}

/-- What an action of the service does directly to the stream. -/
def Action.direct? (s : Service) : Action → Option Stream.Action
  | .connection a => some (.act a)
  | .purge => some .purge
  | .elapse d => some (.time (s.now + d))
  | _ => none

theorem toStream_step {a : Action} {b : Stream.Action} (h : a.direct? s = some b) :
  (s.step env a).toStream = s.toStream.step env b
  := by
  cases a with
  | connection a =>
    obtain rfl := Option.some.inj h
    rfl
  | purge =>
    obtain rfl := Option.some.inj h
    rfl
  | elapse d =>
    obtain rfl := Option.some.inj h
    rfl
  | _ => contradiction

/-- All other actions of the service make moves. -/
theorem moves_step (env : Environment) {a : Action} (h : a.direct? s = none) :
  Moves env s.toStream (s.step env a).toStream
  := by
  cases a with
  | connection b => contradiction
  | purge => contradiction
  | elapse d => contradiction
  | start => apply moves_start
  | stop => apply moves_stop
  | quotations quote bases => apply moves_quotations
  | releaseIdle => apply moves_releaseIdle
  | sync wanted => apply moves_sync
  | refresh => apply moves_refresh
  | beginRefresh => apply moves_beginRefresh
  | finishRefresh => apply moves_finishRefresh
  | abortRefresh => apply moves_abortRefresh
  | source source => exact .refl
  | refreshTimer => apply moves_refreshTick
  | sweepTimer due => apply moves_releaseIdle
  | pingTimer due => apply moves_pingTick

end QuoteFeed.Service

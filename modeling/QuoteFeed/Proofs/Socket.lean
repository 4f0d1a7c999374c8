import Mathlib.Data.List.Induction
import QuoteFeed.Socket

/-!
# What a session reports and writes

The acts of the client, of the session and of the server come in any order.  What they have done to
a session depends on its past through three things: the frames that were accepted, the arrivals that
were taken, and whether an act broke the connection.  Given these, a session is at one of six stages
(`Stage`), an act leads from stage to stage (`Stage.step`), and so every run ends at one
(`stage_run`).  What a client may rely on is read off the stages (`session_after_run`).

The calls of the client are made one after the other, and each of them is one act.
-/

namespace QuoteFeed

/-- The text of a text frame. -/
def WireFrame.text? : WireFrame → Option String
  | .text t => some t
  | .pong _ | .close => none

/-- The text of an arrival that is a message. -/
def Arrival.text? : Arrival → Option String
  | .text t => some t
  | _ => none

/-- With this fault of the answer to a ping, the arrival ends the session. -/
def Arrival.Ends (fault : Option String) : Arrival → Prop
  | .text _ | .other => False
  | .ping _ => fault ≠ none
  | .close _ | .failure _ | .finish => True

namespace Socket

/-- The text frames among the frames, in their order. -/
def texts (frames : List WireFrame) : List String :=
  frames.filterMap WireFrame.text?

/-- The messages among the arrivals, in their order. -/
def messages (arrivals : List Arrival) : List SessionEvent :=
  (arrivals.filterMap Arrival.text?).map .message

/-- What is recorded of each act, given the session that it meets. -/
def log {α : Type} (record : Socket → Act → Option α) (s : Socket) : List Act → List α
  | [] => []
  | a :: acts => (record s a).toList ++ (s.step a).log record acts

/-- The frame that the handle accepts with an act. -/
def accepted? (s : Socket) : Act → Option String
  | .send f => if s.accepts then some f else none
  | _ => none

/-- The arrival that the session takes with an act. -/
def taken? (s : Socket) : Act → Option Arrival
  | .arrive a _ => if s.phase = .established then some a else none
  | _ => none

/-- The act breaks the connection: a write fails, or the server ends the session. -/
def Breaks (s : Socket) : Act → Prop
  | .write fault => s.phase = .established ∧ s.queue ≠ [] ∧ fault ≠ none
  | .arrive a fault => s.phase = .established ∧ a.Ends fault
  | .yield writable => s.phase = .established ∧ s.released ∧ writable ≠ none
  | .send _ | .release | .connected | .refused _ => False

/-- The frames that the handle accepts in a run, in their order. -/
def accepted (s : Socket) (acts : List Act) : List String :=
  s.log accepted? acts

/-- The arrivals that the session takes in a run, in their order. -/
def taken (s : Socket) (acts : List Act) : List Arrival :=
  s.log taken? acts

/-- No act of a run breaks the connection. -/
def Unbroken (s : Socket) : List Act → Prop
  | [] => True
  | a :: acts => ¬ s.Breaks a ∧ (s.step a).Unbroken acts

/-- The events of a whole session, of which these arrivals were taken.  It fails to open, or it
opens, passes the messages on, and ends. -/
inductive Course : List Arrival → List SessionEvent → Prop where
  | refused (reason : String) : Course [] [.errored reason]
  | closed (arrivals : List Arrival) (reason : String) :
    Course arrivals (.opened :: messages arrivals ++ [.closed reason])
  | errored (arrivals : List Arrival) (reason : String) :
    Course arrivals (.opened :: messages arrivals ++ [.errored reason])

/-- All of the frames were written, then one close frame, and nothing after it. -/
def WroteAll (frames : List String) (written : List WireFrame) : Prop :=
  texts written = frames ∧ ∃ before, written = before ++ [.close] ∧ .close ∉ before

/-- Where a session can stand, given the frames that were accepted, whether the connection was left
unbroken, and the arrivals that were taken. -/
inductive Stage (frames : List String) (unbroken : Prop) : List Arrival → Socket → Prop where
  /-- It waits for its connection. -/
  | connecting (released : Bool) :
    Stage frames unbroken [] ⟨.connecting, released, frames, [], []⟩
  /-- It has written some of the frames, and the others are queued. -/
  | established {released : Bool} {arrivals : List Arrival} {written : List WireFrame}
      {queue : List String} (hw : texts written ++ queue = frames) (hc : .close ∉ written) :
    Stage frames unbroken arrivals
      ⟨.established, released, queue, written, .opened :: messages arrivals⟩
  /-- No connection was made. -/
  | refused {released : Bool} (reason : String) :
    Stage frames unbroken [] ⟨.ended, released, [], [], [.errored reason]⟩
  /-- Its handle was released before a connection was made. -/
  | abandoned : Stage frames unbroken [] ⟨.ended, true, [], [], []⟩
  /-- Its connection broke while it was open. -/
  | broken {released : Bool} {arrivals : List Arrival} {written : List WireFrame}
      {events : List SessionEvent} (hw : texts written <+: frames) (he : Course arrivals events)
      (hb : ¬ unbroken) :
    Stage frames unbroken arrivals ⟨.ended, released, [], written, events⟩
  /-- Its handle was released while it was open. -/
  | yielded {arrivals : List Arrival} {written : List WireFrame} (hw : texts written <+: frames)
      (hall : unbroken → WroteAll frames written) :
    Stage frames unbroken arrivals ⟨.ended, true, [], written, .opened :: messages arrivals⟩

variable {s : Socket} {frames : List String} {arrivals : List Arrival} {unbroken : Prop}

/-! ### Runs and their records -/

@[simp]
theorem run_nil :
  s.run [] = s
  := rfl

@[simp]
theorem run_concat (acts : List Act) (a : Act) :
  s.run (acts ++ [a]) = (s.run acts).step a
  := by simp [run]

theorem log_concat {α : Type} (record : Socket → Act → Option α) (s : Socket) (acts : List Act)
    (a : Act) :
  s.log record (acts ++ [a]) = s.log record acts ++ (record (s.run acts) a).toList
  := by
  induction acts generalizing s with
  | nil => simp [log]
  | cons b acts ih => simp [log, ih, run]

theorem unbroken_concat (s : Socket) (acts : List Act) (a : Act) :
  s.Unbroken (acts ++ [a]) ↔ s.Unbroken acts ∧ ¬ (s.run acts).Breaks a
  := by
  induction acts generalizing s with
  | nil => simp [Unbroken]
  | cons b acts ih => simp [Unbroken, ih, run, and_assoc]

/-! ### The records of frames and of arrivals -/

@[simp]
theorem texts_append (l l' : List WireFrame) :
  texts (l ++ l') = texts l ++ texts l'
  := List.filterMap_append

@[simp]
theorem texts_map_text (l : List String) :
  texts (l.map .text) = l
  := by simp [texts, List.filterMap_map, Function.comp_def, WireFrame.text?]

theorem messages_concat (l : List Arrival) (a : Arrival) :
  messages (l ++ [a]) = messages l ++ a.text?.toList.map .message
  := by
  rw [messages, List.filterMap_append, List.map_append, messages]
  cases h : a.text?
  all_goals simp [h]

@[simp]
theorem texts_close :
  texts [.close] = []
  := rfl

/-- A released session writes a part of its queue, from its start. -/
theorem texts_farewell (queue : List String) (writable : Option Nat) :
  texts (farewell queue writable) <+: queue
  := by
  cases writable with
  | none => simp [farewell]
  | some n =>
    rw [farewell]
    split
    · rw [texts_map_text]
      exact List.take_prefix n queue
    · simp

theorem wroteAll_farewell {written : List WireFrame} {queue : List String}
    (hw : texts written ++ queue = frames) (hc : .close ∉ written) :
  WroteAll frames (written ++ farewell queue none)
  := by
  refine ⟨?_, written ++ queue.map .text, by simp [farewell], by simpa using hc⟩
  simp [farewell, hw]

/-! ### From stage to stage -/

/-- To a session that is over, nothing happens but the release of its handle. -/
theorem step_of_ended (h : s.phase = .ended) (a : Act) :
  s.step a = { s with released := s.released || a = .release }
  := by
  obtain ⟨phase, released, queue, written, events⟩ := s
  obtain rfl : phase = .ended := h
  cases a
  all_goals simp [step, accepts]

theorem Stage.of_ended (h : Stage frames unbroken arrivals s) (hs : s.phase = .ended) (a : Act) :
  Stage frames unbroken arrivals (s.step a)
  := by
  rw [step_of_ended hs]
  cases h with
  | connecting | established => cases hs
  | refused reason => exact .refused reason
  | abandoned => exact .abandoned
  | broken hw he hb => exact .broken hw he hb
  | yielded hw hall => exact .yielded hw hall

/-- An established session goes on after a frame, or ends with the fault of its write. -/
theorem Stage.emit {released : Bool} {written : List WireFrame} {queue : List String} {f : WireFrame}
    (hw : texts written ++ f.text?.toList ++ queue = frames) (hc : .close ∉ written)
    (hf : f ≠ .close) (fault : Option String) :
  Stage frames (unbroken ∧ fault = none) arrivals
    (Socket.emit ⟨.established, released, queue, written, .opened :: messages arrivals⟩ f fault)
  := by
  cases fault with
  | none =>
    refine .established ?_ (by simp [hc, hf.symm])
    rw [← hw]
    cases f
    all_goals simp [texts, WireFrame.text?]
  | some reason =>
    refine .broken ?_ (.errored arrivals reason) (by simp)
    rw [← hw, List.append_assoc]
    exact List.prefix_append _ _

/-- An established session passes on what it takes, or ends with it. -/
theorem Stage.arrive {released : Bool} {written : List WireFrame} {queue : List String}
    (hw : texts written ++ queue = frames) (hc : .close ∉ written) (a : Arrival)
    (fault : Option String) :
  Stage frames (unbroken ∧ ¬ a.Ends fault) (arrivals ++ [a])
    (Socket.arrive ⟨.established, released, queue, written, .opened :: messages arrivals⟩ fault a)
  := by
  have hp : texts written <+: frames := ⟨queue, hw⟩
  have same (h : a.text? = none) : messages (arrivals ++ [a]) = messages arrivals := by
    simp [messages_concat, h]
  cases a with
  | text t =>
    have hm : messages arrivals ++ [.message t] = messages (arrivals ++ [.text t]) := by
      simp [messages_concat, Arrival.text?]
    simpa [Arrival.Ends, Socket.arrive, report, hm] using .established hw hc
  | ping data =>
    rw [Socket.arrive, ← same rfl]
    have hw' : texts written ++ (WireFrame.pong data).text?.toList ++ queue = frames := by
      simpa [WireFrame.text?] using hw
    simpa [Arrival.Ends] using .emit hw' hc (by simp) fault
  | other =>
    rw [Socket.arrive, ← same rfl]
    exact .established hw hc
  | close frame =>
    rw [Socket.arrive, ← same rfl]
    exact .broken hp (.closed _ _) (by simp [Arrival.Ends])
  | failure reason =>
    rw [Socket.arrive, ← same rfl]
    exact .broken hp (.errored _ _) (by simp [Arrival.Ends])
  | finish =>
    rw [Socket.arrive, ← same rfl]
    exact .broken hp (.closed _ _) (by simp [Arrival.Ends])

/-- A released session writes what is queued, and ends without an event. -/
theorem Stage.yield {written : List WireFrame} {queue : List String}
    (hw : texts written ++ queue = frames) (hc : .close ∉ written) (writable : Option Nat) :
  Stage frames (unbroken ∧ writable = none) arrivals
    (Socket.yield ⟨.established, true, queue, written, .opened :: messages arrivals⟩ writable)
  := by
  refine .yielded ?_ ?_
  · rw [texts_append, ← hw]
    exact (List.prefix_append_right_inj _).2 (texts_farewell queue writable)
  · rintro ⟨-, rfl⟩
    exact wroteAll_farewell hw hc

theorem Stage.of_connecting (released : Bool) (a : Act) :
  let s : Socket := ⟨.connecting, released, frames, [], []⟩
  Stage (frames ++ (s.accepted? a).toList) (unbroken ∧ ¬ s.Breaks a) (s.taken? a).toList (s.step a)
  := by
  cases a with
  | send f =>
    cases released with
    | false => exact .connecting false
    | true => simpa [accepted?, taken?, Socket.step, accepts] using .connecting true
  | release => simpa [accepted?, taken?, Socket.step] using .connecting true
  | connected => simpa [accepted?] using .established rfl (by simp)
  | refused reason => exact .refused reason
  | write fault => simpa [accepted?, taken?, Socket.step] using .connecting released
  | arrive a fault => simpa [accepted?, taken?, Socket.step] using .connecting released
  | yield writable =>
    cases released with
    | false => simpa [accepted?, taken?, Socket.step] using .connecting false
    | true => exact .abandoned

theorem Stage.of_established {released : Bool} {written : List WireFrame} {queue : List String}
    (hw : texts written ++ queue = frames) (hc : .close ∉ written) (a : Act) :
  let s : Socket := ⟨.established, released, queue, written, .opened :: messages arrivals⟩
  Stage (frames ++ (s.accepted? a).toList) (unbroken ∧ ¬ s.Breaks a)
    (arrivals ++ (s.taken? a).toList) (s.step a)
  := by
  intro s
  have stays (r : Bool) {u : Prop} :
    Stage frames u arrivals ⟨.established, r, queue, written, .opened :: messages arrivals⟩ :=
      .established hw hc
  cases a with
  | send f =>
    cases released with
    | false =>
      have hw' : texts written ++ (queue ++ [f]) = frames ++ [f] := by rw [← hw, List.append_assoc]
      simpa [s, accepted?, taken?, Socket.step, accepts] using .established hw' hc
    | true => simpa [s, accepted?, taken?, Socket.step, accepts] using stays true
  | release => simpa [s, accepted?, taken?, Socket.step] using stays true
  | connected => simpa [s, accepted?, taken?, Socket.step] using stays released
  | refused reason => simpa [s, accepted?, taken?, Socket.step] using stays released
  | write fault =>
    cases queue with
    | nil => simpa [s, accepted?, taken?, Socket.step, writeNext] using stays released
    | cons f queue =>
      have hw' : texts written ++ (WireFrame.text f).text?.toList ++ queue = frames := by
        simpa [WireFrame.text?] using hw
      simpa [s, accepted?, taken?, Breaks, Socket.step, writeNext] using
        .emit hw' hc (by simp) fault
  | arrive a fault => simpa [s, accepted?, taken?, Breaks] using .arrive hw hc a fault
  | yield writable =>
    cases released with
    | false => simpa [s, accepted?, taken?, Socket.step] using stays false
    | true => simpa [s, accepted?, taken?, Breaks, Socket.step] using .yield hw hc writable

/-- An act leads from a stage to a stage. -/
theorem Stage.step (h : Stage frames unbroken arrivals s) (a : Act) :
  Stage (frames ++ (s.accepted? a).toList) (unbroken ∧ ¬ s.Breaks a)
    (arrivals ++ (s.taken? a).toList) (s.step a)
  := by
  by_cases hs : s.phase = .ended
  · have hf : s.accepted? a = none := by cases a <;> simp [accepted?, accepts, hs]
    have ht : s.taken? a = none := by cases a <;> simp [taken?, hs]
    have hb : ¬ s.Breaks a := by cases a <;> simp [Breaks, hs]
    simpa [hf, ht, hb] using h.of_ended hs a
  cases h with
  | connecting released => exact .of_connecting released a
  | established hw hc => exact .of_established hw hc a
  | refused | abandoned | broken | yielded => exact absurd rfl hs

/-- Every run ends at a stage. -/
theorem stage_run (acts : List Act) :
  Stage (initial.accepted acts) (initial.Unbroken acts) (initial.taken acts) (initial.run acts)
  := by
  induction acts using List.reverseRecOn with
  | nil => exact .connecting false
  | append_singleton acts a ih =>
    have hu := propext (unbroken_concat initial acts a)
    rw [accepted, taken, log_concat, log_concat, hu, run_concat]
    exact ih.step a

/-! ### What a client may rely on -/

/-- What is reported is the start of a whole session. -/
theorem Stage.events_prefix (h : Stage frames unbroken arrivals s) :
  ∃ events, Course arrivals events ∧ s.events <+: events
  := by
  cases h with
  | connecting | abandoned => exact ⟨_, .refused "", List.nil_prefix⟩
  | established | yielded => exact ⟨_, .errored arrivals "", List.prefix_append _ _⟩
  | refused reason => exact ⟨_, .refused reason, List.prefix_rfl⟩
  | broken _ he _ => exact ⟨_, he, List.prefix_rfl⟩

/-- A session that is over without its handle being released has reported its end. -/
theorem Stage.course (h : Stage frames unbroken arrivals s) (hs : s.phase = .ended)
    (hr : ¬ s.released) :
  Course arrivals s.events
  := by
  cases h with
  | connecting | established => cases hs
  | refused reason => exact .refused reason
  | abandoned | yielded => exact absurd rfl hr
  | broken _ he _ => exact he

theorem Stage.texts_prefix (h : Stage frames unbroken arrivals s) :
  texts s.written <+: frames
  := by
  cases h with
  | connecting | refused | abandoned => exact List.nil_prefix
  | established hw _ => exact ⟨_, hw⟩
  | broken hw _ _ | yielded hw _ => exact hw

theorem Stage.wroteAll (h : Stage frames unbroken arrivals s) (hs : s.phase = .ended)
    (ho : .opened ∈ s.events) (hu : unbroken) :
  WroteAll frames s.written
  := by
  cases h with
  | connecting | established => cases hs
  | refused | abandoned => simp at ho
  | broken _ _ hb => exact absurd hu hb
  | yielded _ hall => exact hall hu

theorem settle_of_released (hr : s.released) :
  s.settle = s.step (.yield none)
  := by simp [settle, idleActs, hr, run]

/-- A session that sees that its handle was released is over, and reports nothing of it. -/
theorem step_yield (hr : s.released) (writable : Option Nat) :
  (s.step (.yield writable)).phase = .ended ∧ (s.step (.yield writable)).events = s.events
  := by
  rw [step]
  cases hs : s.phase with
  | connecting | established =>
    simp only [hr, if_true]
    exact ⟨rfl, rfl⟩
  | ended => exact ⟨hs, rfl⟩

/-- After every run, the events are the start of the events of a whole session, and all of them if
the session is over and its handle was not released.  The text frames that were written are the
first of those that the handle accepted.  If the handle was released, the connection had been made
and nothing broke it, then all of them were written and one close frame after them as soon as the
session is over, and it is over as soon as it sees that its handle was released. -/
theorem session_after_run (acts : List Act) :
  let s := initial.run acts
  let frames := initial.accepted acts
  let arrivals := initial.taken acts
  (∃ events, Course arrivals events ∧ s.events <+: events) ∧
    (s.phase = .ended → ¬ s.released → Course arrivals s.events) ∧
    texts s.written <+: frames ∧
    (s.released → .opened ∈ s.events → initial.Unbroken acts →
      (s.phase = .ended → WroteAll frames s.written) ∧
        s.settle.phase = .ended ∧ WroteAll frames s.settle.written)
  := by
  intro s frames arrivals
  have h : Stage frames (initial.Unbroken acts) arrivals s := stage_run acts
  refine ⟨h.events_prefix, h.course, h.texts_prefix, fun hr ho hu => ?_⟩
  have hyield : Stage frames (initial.Unbroken acts) arrivals (s.step (.yield none)) := by
    simpa [accepted?, taken?, Breaks] using h.step (.yield none)
  obtain ⟨hended, hevents⟩ := step_yield hr none
  rw [settle_of_released hr]
  exact ⟨fun hs => h.wroteAll hs ho hu, hended, hyield.wroteAll hended (hevents ▸ ho) hu⟩

/-- A run in which the handle is released while a frame is queued, and a ping is answered before the
session sees it. -/
def farewellRun : List Act :=
  [.send "a", .connected, .send "b", .write none, .arrive (.text "x") none, .release,
    .send "c", .arrive (.ping "d") none, .yield none]

/-- What the handle accepted is written, and then a close frame. -/
theorem session_after_farewell :
  let s := initial.run farewellRun
  s.phase = .ended ∧ s.released ∧ .opened ∈ s.events ∧ initial.Unbroken farewellRun ∧
    WroteAll ["a", "b"] s.written ∧ s.written = [.text "a", .pong "d", .text "b", .close]
  := by
  have hu : initial.Unbroken farewellRun := by
    simp [farewellRun, Unbroken, Breaks, Arrival.Ends]
  have hf : initial.accepted farewellRun = ["a", "b"] := by decide
  obtain ⟨-, -, -, h⟩ := session_after_run farewellRun
  obtain ⟨hw, -⟩ := h rfl (by decide) hu
  exact ⟨rfl, rfl, by decide, hu, hf ▸ hw rfl, by decide⟩

end Socket

end QuoteFeed

import QuoteFeed.Report.Metrics

/-!
# Exposition of the metrics

The metrics as families of samples.  A counter that is zero has no sample, and a family without
samples is left out; the gauges are always there.
-/

namespace QuoteFeed

/-- The kind of a family. -/
inductive Family.Kind where
  | counter
  | gauge
  | summary
  deriving DecidableEq

/-- The name of a kind. -/
def Family.Kind.name : Kind → String
  | .counter => "counter"
  | .gauge => "gauge"
  | .summary => "summary"

/-- A value with its name and, where there is one, its label. -/
structure Sample where
  name : String
  label : Option (String × String)
  value : Nat

/-- Values of one meaning. -/
structure Family where
  name : String
  kind : Family.Kind
  help : String
  samples : List Sample

/-- The name of a sample with its label. -/
def Sample.title (s : Sample) : String :=
  match s.label with
  | none => s.name
  | some (key, value) => s.name ++ "\x7b" ++ key ++ "=\"" ++ value ++ "\"\x7d"

namespace Metrics

/-- The family of a name after the common beginning. -/
def family (name : String) (kind : Family.Kind) (help : String)
    (samples : List (Option (String × String) × Nat)) : Family :=
  let full := "quotation_stream_" ++ name
  let sampleName := if kind = .summary then full ++ "_count" else full
  ⟨full, kind, help, samples.map fun s => ⟨sampleName, s.1, s.2⟩⟩

/-- The samples of counters by a label, without those that are zero. -/
def labelled (key : String) (samples : List (String × Nat)) :
    List (Option (String × String) × Nat) :=
  (samples.filter fun s => s.2 ≠ 0).map fun s => (some (key, s.1), s.2)

/-- The sample of a counter, unless it is zero. -/
def plain (n : Nat) : List (Option (String × String) × Nat) :=
  if n = 0 then [] else [(none, n)]

/-- Counts by the type of event. -/
def byEvent (c : EventCounts) : List (Option (String × String) × Nat) :=
  labelled "event_type"
    ([EventType.ticker, .orderBook, .pong, .other].map fun k => (k.name, c.get k))

/-- Counts by the reason of a drop. -/
def byReason (c : DropCounts) : List (Option (String × String) × Nat) :=
  labelled "reason"
    ([DropReason.malformed, .unsupportedType, .unknownMarket, .emptyBook].map fun k =>
      (k.name, c.get k))

/-- Counts by the type of message. -/
def byMessage (c : MessageCounts) : List (Option (String × String) × Nat) :=
  labelled "message_type"
    ([MessageType.subscribe, .unsubscribe, .ping].map fun k => (k.name, c.get k))

/-- The families that have samples. -/
def families (m : Metrics) : List Family :=
  [family "events_received_total" .counter "Total inbound stream events by type"
      (byEvent m.received),
    family "events_dropped_total" .counter "Total inbound stream events dropped by reason"
      (byReason m.dropped),
    family "wire_messages_sent_total" .counter "Total outbound wire messages by type"
      (byMessage m.sent),
    family "keepalive_pings_total" .counter "Total keepalive pings sent" (plain m.pings),
    family "keepalive_acks_total" .counter "Total keepalive acks received" (plain m.acks),
    family "catalog_refreshes_total" .counter "Total catalog refresh attempts by outcome"
      (labelled "outcome" [("success", m.refreshes), ("failure", m.failedRefreshes)]),
    family "catalog_markets" .gauge "Number of markets in the current catalog snapshot"
      [(none, m.catalogMarkets)],
    family "connection_state" .gauge
      "Stream connection state (0 disconnected, 1 connecting, 2 connected)"
      [(none, m.connectionState)],
    family "subscriptions" .gauge "Number of markets the stream connection subscribes to"
      [(none, m.subscriptions)],
    family "event_processing_seconds" .summary
      "Time to decode an inbound event and write its quote" (byEvent m.processed)].filter
    fun f => !f.samples.isEmpty

/-- A family as lines of text. -/
def familyText (f : Family) : String :=
  "# HELP " ++ f.name ++ " " ++ f.help ++ "\n# TYPE " ++ f.name ++ " " ++ f.kind.name ++ "\n" ++
    String.join (f.samples.map fun s => s.title ++ " " ++ Numeral.text s.value ++ "\n") ++ "\n"

/-- The metrics as text. -/
def exposition (m : Metrics) : String :=
  String.join (m.families.map familyText)

end Metrics

end QuoteFeed

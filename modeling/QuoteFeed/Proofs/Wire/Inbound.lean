import QuoteFeed.Proofs.Decimal.Text
import QuoteFeed.Proofs.Json.Record
import QuoteFeed.Proofs.Json.Writer
import QuoteFeed.Proofs.Text.Blank
import QuoteFeed.Wire.Inbound

/-!
# Frames that describe an event

A JSON value describes an event (`Inbound.Describes`) whatever the order of its members is and
whatever unknown members stand among them.  Every text that writes such a value is decoded as the
event, with any blanks around it (`Inbound.decode_of_describes`).
-/

namespace QuoteFeed

namespace Json

/-- A whole number, in digits. -/
def IsInteger (i : Int) (v : Value) : Prop :=
  ∃ n : Number, v = .number n ∧ n.isWhole = true ∧ n.negative = decide (i < 0) ∧
    Numeral.value n.whole = i.natAbs

theorem IsInteger.signed? {i : Int} {v : Value} (h : IsInteger i v) (hl : -Nat.pow 2 63 ≤ i)
    (hu : i < Nat.pow 2 63) :
  v.nullable? Value.signed? = some (some i)
  := by
  obtain ⟨n, rfl, hw, hn, hv⟩ := h
  have hs : n.signed? = some i := by
    have hm : Numeral.max64 = 18446744073709551615 := rfl
    have hp : (Nat.pow 2 63 : Nat) = 9223372036854775808 := rfl
    rw [hp] at hl hu
    rw [Number.signed?, Number.whole?, if_pos hw, hn, hv, hp, hm]
    dsimp only
    by_cases hi : i < 0
    · rw [decide_eq_true hi, if_pos rfl, if_pos (by omega), Option.filter_some]
      rw [show (-(i.natAbs : Int)) = i by omega, if_pos (by simpa using hu)]
    · rw [decide_eq_false hi, if_neg Bool.false_ne_true, if_pos (by omega), Option.filter_some]
      rw [show (i.natAbs : Int) = i by omega, if_pos (by simpa using hu)]
  rw [Value.nullable?, Value.signed?, hs]
  · rfl
  · simp

end Json

/-- A level as an array of its price and its size. -/
def Level.toJson (l : Level) : Json.Value :=
  .array [l.price.toJson, l.size.toJson]

namespace Inbound

/-- The member that gives a time.  An absent time is left out or null. -/
inductive WritesTime : Option Int → List (String × Json.Value) → Prop where
  | omitted : WritesTime none []
  | null : WritesTime none [("ts", .null)]
  | given {i : Int} {v : Json.Value} (h : Json.IsInteger i v) : WritesTime (some i) [("ts", v)]

/-- The values that describe an event. -/
inductive Describes : Inbound → Json.Value → Prop where
  | ticker {id : MarketId} {ts : Option Int} {buy sell : Decimal}
      {time : List (String × Json.Value)} {data v : Json.Value} (ht : WritesTime ts time)
      (hd : Json.IsRecord ["buy", "sell"] [("buy", buy.toJson), ("sell", sell.toJson)] data)
      (hv : Json.IsRecord ["type", "id", "ts", "data"]
        ([("type", .text "ticker"), ("id", .text id.name), ("data", data)] ++ time) v) :
    Describes (.ticker id ts buy sell) v
  | orderBook {id : MarketId} {ts : Option Int} {asks bids : List Level}
      {time : List (String × Json.Value)} {data v : Json.Value} (ht : WritesTime ts time)
      (hd : Json.IsRecord ["asks", "bids"]
        [("asks", .array (asks.map (·.toJson))), ("bids", .array (bids.map (·.toJson)))] data)
      (hv : Json.IsRecord ["type", "id", "ts", "data"]
        ([("type", .text "orderbook"), ("id", .text id.name), ("data", data)] ++ time) v) :
    Describes (.orderBook id ts asks bids) v
  | pong {ts : Option Int} {time : List (String × Json.Value)} {v : Json.Value}
      (ht : WritesTime ts time)
      (hv : Json.IsRecord ["type", "ts"] ([("type", .text "pong")] ++ time) v) :
    Describes (.pong ts) v

/-- The time that an event reports. -/
def ts : Inbound → Option Int
  | .ticker _ ts _ _ => ts
  | .orderBook _ ts _ _ => ts
  | .pong ts => ts

/-- The name of the type of an event. -/
def kind : Inbound → String
  | .ticker .. => "ticker"
  | .orderBook .. => "orderbook"
  | .pong _ => "pong"

/-- The decimals of an event. -/
def decimals : Inbound → List Decimal
  | .ticker _ _ buy sell => [buy, sell]
  | .orderBook _ _ asks bids => (asks ++ bids).flatMap fun l => [l.price, l.size]
  | .pong _ => []

/-- The time fits 64 bits with a sign, and no decimal is a negative zero. -/
structure IsRegular (e : Inbound) : Prop where
  le_ts : ∀ i, e.ts = some i → -Nat.pow 2 63 ≤ i
  ts_lt : ∀ i, e.ts = some i → i < Nat.pow 2 63
  ne_zero : ∀ d ∈ e.decimals, d.negative = true → d.mantissa ≠ 0

variable {ts : Option Int} {time : List (String × Json.Value)}

/-- The time that is written is the one that is read. -/
theorem WritesTime.time? (h : WritesTime ts time) (hl : ∀ i, ts = some i → -Nat.pow 2 63 ≤ i)
    (hu : ∀ i, ts = some i → i < Nat.pow 2 63) :
  ∃ field, Json.lookup? "ts" time = some field ∧ Inbound.time? field = some ts
  := by
  cases h with
  | omitted => exact ⟨none, rfl, rfl⟩
  | null => exact ⟨some .null, rfl, rfl⟩
  | @given i v h => exact ⟨some v, rfl, h.signed? (hl i rfl) (hu i rfl)⟩

/-- The time is under its own name. -/
theorem WritesTime.lookup? (h : WritesTime ts time) (known : List (String × Json.Value))
    {name : String} (hn : "ts" ≠ name) :
  Json.lookup? name (known ++ time) = Json.lookup? name known
  := by
  apply Json.lookup?_append_of_ne
  intro m hm
  cases h with
  | omitted => exact nomatch hm
  | null => rw [List.mem_singleton.1 hm]; apply hn
  | given h => rw [List.mem_singleton.1 hm]; apply hn

/-- The type is read. -/
theorem kind?_of_describes {e : Inbound} {v : Json.Value} (h : Describes e v) :
  kind? v = some (some e.kind)
  := by
  have read {known : List (String × Json.Value)} {names : List String} (kind : String)
      (hv : Json.IsRecord names known v) (ht : "type" ∈ names)
      (hl : Json.lookup? "type" known = some (some (.text kind))) :
      kind? v = some (some kind) := by
    have hf : v.fields? ["type"] = some [some (.text kind)] := by
      rw [hv.fields? (by simpa using ht)]
      simp [hl]
    rw [kind?, hf]
    rfl
  cases h with
  | ticker ht hd hv => apply read "ticker" hv (by simp) (ht.lookup? _ (by decide))
  | orderBook ht hd hv => apply read "orderbook" hv (by simp) (ht.lookup? _ (by decide))
  | pong ht hv => apply read "pong" hv (by simp) (ht.lookup? _ (by decide))

theorem ofJson?_toJson {d : Decimal} (h : d.negative = true → d.mantissa ≠ 0) :
  Decimal.ofJson? d.toJson = some d
  := Decimal.ofText?_text d h

/-- The levels of a side are read. -/
theorem side?_toJson {levels : List Level}
    (h : ∀ l ∈ levels, ∀ d ∈ [l.price, l.size], d.negative = true → d.mantissa ≠ 0) :
  side? (some (.array (levels.map (·.toJson)))) = some levels
  := by
  change (levels.map (·.toJson)).mapM level? = some levels
  induction levels with
  | nil => rfl
  | cons l levels ih =>
    have hl := h l List.mem_cons_self
    rw [List.map_cons, List.mapM_cons, ih fun k hk => h k (List.mem_cons_of_mem _ hk), Level.toJson,
      level?, ofJson?_toJson (hl _ (by simp)), ofJson?_toJson (hl _ (by simp))]
    rfl

/-- The fields of an event with a name and data are read. -/
theorem fields?_of_named {kind : String} {id : MarketId} {data v : Json.Value}
    (ht : WritesTime ts time)
    (hv : Json.IsRecord ["type", "id", "ts", "data"]
      ([("type", .text kind), ("id", .text id.name), ("data", data)] ++ time) v)
    {field : Option Json.Value} (hf : Json.lookup? "ts" time = some field) :
  v.fields? ["id", "ts", "data"] = some [some (.text id.name), field, some data]
  := by
  have hid : Json.lookup? "id"
      ([("type", .text kind), ("id", .text id.name), ("data", data)] ++ time) =
        some (some (.text id.name)) := ht.lookup? _ (by decide)
  have hdata : Json.lookup? "data"
      ([("type", .text kind), ("id", .text id.name), ("data", data)] ++ time) =
        some (some data) := ht.lookup? _ (by decide)
  have hts : Json.lookup? "ts"
      ([("type", .text kind), ("id", .text id.name), ("data", data)] ++ time) = some field := hf
  rw [hv.fields? (by simp)]
  simp only [List.mapM_cons, List.mapM_nil, hid, hts, hdata]
  rfl

/-- An event is read from each value that describes it. -/
theorem ofKind_of_describes {e : Inbound} {v : Json.Value} (he : e.IsRegular)
    (h : Describes e v) :
  ofKind e.kind v = .ok e
  := by
  cases h with
  | @ticker id ts buy sell time data _ ht hd hv =>
    obtain ⟨field, hf, hts⟩ := ht.time? he.le_ts he.ts_lt
    have hp : prices? data = some (buy, sell) := by
      have hf : data.fields? ["buy", "sell"] = some [some buy.toJson, some sell.toJson] := by
        rw [hd.fields? fun _ h => h]
        rfl
      rw [prices?, hf]
      simp only [Option.bind_eq_bind, Option.bind_some, Json.required?]
      rw [ofJson?_toJson (he.ne_zero buy (by simp [decimals])),
        ofJson?_toJson (he.ne_zero sell (by simp [decimals]))]
      rfl
    have hr : ticker? v = some (.ticker id ts buy sell) := by
      rw [ticker?, fields?_of_named ht hv hf]
      simp only [Option.bind_eq_bind, Option.bind_some, Json.required?, hts, hp]
      rfl
    rw [ofKind, kind, if_pos rfl, hr]
    rfl
  | @orderBook id ts asks bids time data _ ht hd hv =>
    obtain ⟨field, hf, hts⟩ := ht.time? he.le_ts he.ts_lt
    have hz : ∀ l ∈ asks ++ bids, ∀ d ∈ [l.price, l.size], d.negative = true → d.mantissa ≠ 0 := by
      intro l hl d hd
      apply he.ne_zero d
      apply List.mem_flatMap.2
      use l
    rw [List.forall_mem_append] at hz
    have hp : sides? data = some (asks, bids) := by
      have hf : data.fields? ["asks", "bids"] = some
          [some (.array (asks.map (·.toJson))), some (.array (bids.map (·.toJson)))] := by
        rw [hd.fields? fun _ h => h]
        rfl
      rw [sides?, hf]
      simp only [Option.bind_eq_bind, Option.bind_some]
      rw [side?_toJson hz.1, side?_toJson hz.2]
      rfl
    have hr : orderBook? v = some (.orderBook id ts asks bids) := by
      rw [orderBook?, fields?_of_named ht hv hf]
      simp only [Option.bind_eq_bind, Option.bind_some, Json.required?, Json.default?, hts, hp]
      rfl
    rw [ofKind, kind, if_neg (by decide), if_pos rfl, hr]
    rfl
  | @pong ts time _ ht hv =>
    obtain ⟨field, hf, hts⟩ := ht.time? he.le_ts he.ts_lt
    have hfields : v.fields? ["ts"] = some [field] := by
      have hts : Json.lookup? "ts" ([("type", .text "pong")] ++ time) = some field := hf
      rw [hv.fields? (by simp)]
      simp only [List.mapM_cons, List.mapM_nil, hts]
      rfl
    have hr : pong? v = some (.pong ts) := by
      rw [pong?, hfields]
      simp only [Option.bind_eq_bind, Option.bind_some, hts]
      rfl
    rw [ofKind, kind, if_neg (by decide), if_neg (by decide), if_pos rfl, hr]
    rfl

/-- What describes an event is an object. -/
theorem Describes.exists_object {e : Inbound} {v : Json.Value} (h : Describes e v) :
  ∃ members, v = .object members
  := by
  cases h with
  | ticker ht hd hv => exact ⟨_, hv.choose_spec.choose_spec.1⟩
  | orderBook ht hd hv => exact ⟨_, hv.choose_spec.choose_spec.1⟩
  | pong ht hv => exact ⟨_, hv.choose_spec.choose_spec.1⟩

/-- For every event whose time fits 64 bits and whose decimals are no negative zeros, and for every
text that writes a value which describes it, with blanks around it, the event is decoded. -/
theorem decode_of_describes {e : Inbound} (he : e.IsRegular) {v : Json.Value}
    (hv : Describes e v) {t : List Char} (ht : Json.Written v t) {before after : List Char}
    (hb : ∀ c ∈ before, Text.isBlank c = true) (ha : ∀ c ∈ after, Text.isBlank c = true) :
  decode (String.ofList (before ++ (t ++ after))) = .ok e
  := by
  obtain ⟨members, hm⟩ := hv.exists_object
  obtain ⟨s, rfl⟩ := ht.braces hm
  have hr : Json.read? ('{' :: (s ++ ['}'])) = some v := by
    have h := Json.read?_of_written ht Json.isSpace_nil Json.isSpace_nil
    simpa using h
  rw [decode, String.toList_ofList, Text.trimChars_append hb ha rfl rfl, decodeChars,
    if_neg (by simp), hr]
  dsimp only
  rw [kind?_of_describes hv]
  apply ofKind_of_describes he hv

/-- A ticker is decoded whose members stand in reverse, with one that is unknown. -/
theorem decode_reversed_ticker :
  let buy : Decimal := ⟨false, 250, 2, Nat.le_of_ble_eq_true rfl, Nat.le_of_ble_eq_true rfl⟩
  let event : Inbound := .ticker ⟨"BTC-EUR"⟩ none buy .zero
  let data : Json.Value := .record [("buy", buy.toJson), ("sell", Decimal.zero.toJson)]
  let v : Json.Value := .record
    ([("type", .text "ticker"), ("id", .text "BTC-EUR"), ("data", data), ("ts", .null)].reverse ++
      [("venues", .array [.null, .bool true])])
  event.IsRegular ∧ Describes event v ∧ Json.Written v v.render ∧
    decode (String.ofList (['\u2003'] ++ (v.render ++ ['\n']))) = .ok event
  := by
  intro buy event data v
  have he : event.IsRegular := ⟨nofun, nofun, by simp [event, buy, decimals, Decimal.zero]⟩
  have hd : Json.IsRecord ["buy", "sell"]
      [("buy", buy.toJson), ("sell", Decimal.zero.toJson)] data :=
    ⟨_, [], rfl, .refl _, nofun⟩
  have hv : Describes event v := by
    apply Describes.ticker .null hd
    refine ⟨_, _, rfl, (List.reverse_perm _).append_right _, ?_⟩
    simp
  have hw : v.IsWritable := by
    have hdata : data.IsWritable := by
      apply Json.Value.IsWritable.record
      simp only [List.forall_mem_cons]
      exact ⟨.text _, .text _, nofun⟩
    have hvenues : (Json.Value.array [.null, .bool true]).IsWritable := by
      apply Json.Value.IsWritable.array
      simp only [List.forall_mem_cons]
      exact ⟨.null, .bool true, nofun⟩
    apply Json.Value.IsWritable.record
    simp only [List.reverse_cons, List.reverse_nil, List.nil_append, List.cons_append,
      List.forall_mem_cons]
    exact ⟨.null, hdata, .text _, .text _, hvenues, nofun⟩
  have ht := Json.written_render hw
  use he, hv, ht
  apply decode_of_describes he hv ht
  · intro c hc
    rw [List.mem_singleton.1 hc]
    rfl
  · intro c hc
    rw [List.mem_singleton.1 hc]
    rfl

end Inbound

end QuoteFeed

import Mathlib.Data.List.Nodup
import Mathlib.Tactic.Use
import QuoteFeed.Proofs.Text.Blank
import QuoteFeed.Proofs.Text.Numeral
import QuoteFeed.Settings

/-!
# Settings that are accepted

Variables are refused for the first of their faults: one of the address of the stream, one of the
address of the catalog, or a keepalive interval of zero (`Settings.Refuses`).  Otherwise every field
of the settings is read from a variable of its own, whatever the others are
(`Settings.ofVariables_eq_ok_iff`), so a variable has a say in one field at most
(`Settings.ofVariables_cases`).
-/

namespace QuoteFeed.Settings

open Numeral (max16 max32 max64)

variable {vars vars' : Variables} {settings settings' : Settings} {name : String}
  {schemes : List String} {url : String} {e : Error} {bound n : Nat}

/-! ### Variables -/

/-- What is wrong with the variable of an address. -/
inductive AddressFault (vars : Variables) (name : String) (schemes : List String) : Error → Prop where
  | missing (h : vars name = none) : AddressFault vars name schemes (.missing name)
  | blank {v : String} (h : vars name = some v) (hb : Text.isBlankText v = true) :
      AddressFault vars name schemes (.blank name)
  | scheme {v : String} (h : vars name = some v) (hb : Text.isBlankText v = false)
      (hs : ∀ scheme ∈ schemes, ¬ scheme.toList <+: (Text.trim v).toList) :
      AddressFault vars name schemes (.scheme name schemes)

/-- The variable holds an address with one of its schemes, and perhaps blanks around it. -/
def HoldsAddress (vars : Variables) (name : String) (schemes : List String) (url : String) : Prop :=
  ∃ v, vars name = some v ∧ Text.isBlankText v = false ∧ url = Text.trim v ∧
    ∃ scheme ∈ schemes, scheme.toList <+: url.toList

/-- The variable holds a count within a bound, and perhaps blanks around it. -/
def HoldsCount (vars : Variables) (name : String) (bound n : Nat) : Prop :=
  ∃ v, vars name = some v ∧ Numeral.IsCount bound (Text.trimChars v.toList) n

theorem number?_eq_some_iff :
  number? vars name bound = some n ↔ HoldsCount vars name bound n
  := by
  rw [number?, Option.bind_eq_some_iff, HoldsCount]
  simp only [Numeral.unsigned?_eq_some_iff]

theorem any_isPrefixOf_iff {s : List Char} :
  (schemes.any fun scheme => scheme.toList.isPrefixOf s) = true ↔
    ∃ scheme ∈ schemes, scheme.toList <+: s
  := by
  simp only [List.any_eq_true, List.isPrefixOf_iff_prefix]

/-- A variable holds an address, or there is something wrong with it. -/
theorem address_cases (vars : Variables) (name : String) (schemes : List String) :
  (∃ url, address vars name schemes = .ok url ∧ HoldsAddress vars name schemes url) ∨
    ∃ e, address vars name schemes = .error e ∧ AddressFault vars name schemes e
  := by
  rw [address, required]
  cases hv : vars name with
  | none => exact Or.inr ⟨_, rfl, .missing hv⟩
  | some v =>
    dsimp only
    rw [Text.isEmpty_trim]
    cases hb : Text.isBlankText v with
    | true => exact Or.inr ⟨_, rfl, .blank hv hb⟩
    | false =>
      simp only [Bool.false_eq_true, if_false, bind, Except.bind]
      by_cases hs : (schemes.any fun scheme => scheme.toList.isPrefixOf (Text.trim v).toList) = true
      · rw [if_pos hs]
        exact Or.inl ⟨_, rfl, v, hv, hb, rfl, any_isPrefixOf_iff.1 hs⟩
      · rw [if_neg hs]
        refine Or.inr ⟨_, rfl, .scheme hv hb ?_⟩
        intro scheme hm hp
        apply hs (any_isPrefixOf_iff.2 ⟨scheme, hm, hp⟩)

theorem AddressFault.not_holds (h : AddressFault vars name schemes e) :
  ¬ HoldsAddress vars name schemes url
  := by
  rintro ⟨v, hv, hb, rfl, scheme, hm, hp⟩
  cases h with
  | missing h => cases hv.symm.trans h
  | blank h hb' =>
    obtain rfl := Option.some.inj (hv.symm.trans h)
    cases hb.symm.trans hb'
  | scheme h _ hs =>
    obtain rfl := Option.some.inj (hv.symm.trans h)
    apply hs scheme hm hp

/-- The three faults exclude each other. -/
theorem AddressFault.unique {e' : Error} (h : AddressFault vars name schemes e)
    (h' : AddressFault vars name schemes e') :
  e = e'
  := by
  cases h with
  | missing hv =>
    cases h' with
    | missing => rfl
    | blank hv' => cases hv.symm.trans hv'
    | scheme hv' => cases hv.symm.trans hv'
  | blank hv hb =>
    cases h' with
    | missing hv' => cases hv.symm.trans hv'
    | blank => rfl
    | scheme hv' hb' =>
      obtain rfl := Option.some.inj (hv.symm.trans hv')
      cases hb.symm.trans hb'
  | scheme hv hb =>
    cases h' with
    | missing hv' => cases hv.symm.trans hv'
    | blank hv' hb' =>
      obtain rfl := Option.some.inj (hv.symm.trans hv')
      cases hb.symm.trans hb'
    | scheme => rfl

theorem address_eq_error_iff :
  address vars name schemes = .error e ↔ AddressFault vars name schemes e
  := by
  obtain ⟨url, h, ha⟩ | ⟨e', h, hf⟩ := address_cases vars name schemes
  · rw [h]
    constructor
    · intro e
      cases e
    · intro hf
      apply absurd ha hf.not_holds
  · rw [h, Except.error.injEq]
    constructor
    · rintro rfl
      apply hf
    · intro hf'
      apply hf.unique hf'

/-! ### Fields -/

/-- The fields of the settings that are numbers. -/
inductive NumberField where
  | depth | keepalive | eventBuffer
  | refresh | retry | grace | timeout
  | quoteTtl | demandWindow
  | httpPort
  deriving DecidableEq

namespace NumberField

/-- The name of the variable. -/
def key : NumberField → String
  | .depth => "QUOTATION_ORDERBOOK_DEPTH"
  | .keepalive => keepaliveKey
  | .eventBuffer => "QUOTATION_EVENT_BUFFER"
  | .refresh => "QUOTATION_CATALOG_REFRESH_SECS"
  | .retry => "QUOTATION_CATALOG_RETRY_SECS"
  | .grace => "QUOTATION_CATALOG_TTL_GRACE_SECS"
  | .timeout => "QUOTATION_CATALOG_TIMEOUT_SECS"
  | .quoteTtl => "QUOTATION_QUOTE_TTL_SECS"
  | .demandWindow => "QUOTATION_DEMAND_WINDOW_SECS"
  | .httpPort => "QUOTATION_HTTP_PORT"

/-- The greatest number that the variable can hold. -/
def limit : NumberField → Nat
  | .depth => max32
  | .httpPort => max16
  | _ => max64

/-- What a number in the variable stands for. -/
def ofCount (f : NumberField) (n : Nat) : Nat :=
  match f with
  | .depth | .httpPort => n
  | .keepalive => Duration.millis n
  | .eventBuffer => max 1 n
  | .refresh | .retry | .grace | .timeout | .quoteTtl | .demandWindow => Duration.seconds n

/-- The default. -/
def absent : NumberField → Nat
  | .depth => 10
  | .keepalive => Duration.millis 4000
  | .eventBuffer => 1024
  | .refresh => Duration.seconds 3600
  | .retry => Duration.seconds 10
  | .grace => Duration.seconds 300
  | .timeout => Duration.seconds 10
  | .quoteTtl => Duration.seconds 60
  | .demandWindow => Duration.seconds 300
  | .httpPort => 8083

/-- The value of the field. -/
def get (s : Settings) : NumberField → Nat
  | .depth => s.stream.depth
  | .keepalive => s.stream.keepalive
  | .eventBuffer => s.stream.eventBuffer
  | .refresh => s.catalog.refresh
  | .retry => s.catalog.retry
  | .grace => s.catalog.grace
  | .timeout => s.catalog.timeout
  | .quoteTtl => s.quotes.ttl
  | .demandWindow => s.quotes.demandWindow
  | .httpPort => s.httpPort

/-- The field has the number that its variable holds, and else its default. -/
def Holds (vars : Variables) (f : NumberField) (a : Nat) : Prop :=
  (∃ n, HoldsCount vars f.key f.limit n ∧ a = f.ofCount n) ∨
    (∀ n, ¬ HoldsCount vars f.key f.limit n) ∧ a = f.absent

/-- The number that is read from the variable of the field. -/
def read (vars : Variables) (f : NumberField) : Nat :=
  ((number? vars f.key f.limit).map f.ofCount).getD f.absent

theorem holds_read (vars : Variables) (f : NumberField) :
  f.Holds vars (f.read vars)
  := by
  rw [read]
  cases h : number? vars f.key f.limit with
  | none =>
    refine Or.inr ⟨?_, rfl⟩
    intro n hn
    cases h.symm.trans (number?_eq_some_iff.2 hn)
  | some n => exact Or.inl ⟨n, number?_eq_some_iff.1 h, rfl⟩

end NumberField

/-- The fields of the settings. -/
inductive Field where
  | streamUrl
  | catalogUrl
  | channel
  | precision
  | number (f : NumberField)
  deriving DecidableEq

namespace Field

/-- The name of the variable. -/
def key : Field → String
  | .streamUrl => streamUrlKey
  | .catalogUrl => catalogUrlKey
  | .channel => "QUOTATION_QUOTE_CHANNEL"
  | .precision => "QUOTATION_CURRENCY_PRECISION"
  | .number f => f.key

/-- The values that the field can have. -/
def Value : Field → Type
  | .streamUrl | .catalogUrl => String
  | .channel => Channel
  | .precision => PrecisionTable
  | .number _ => Nat

/-- The value of the field. -/
def get (s : Settings) : (f : Field) → f.Value
  | .streamUrl => s.stream.url
  | .catalogUrl => s.catalog.url
  | .channel => s.stream.channel
  | .precision => s.precision
  | .number f => f.get s

/-- The value that is read from the variable of the field. -/
def read (vars : Variables) : (f : Field) → f.Value
  | .streamUrl => ((vars streamUrlKey).map Text.trim).getD ""
  | .catalogUrl => ((vars catalogUrlKey).map Text.trim).getD ""
  | .channel => ((vars "QUOTATION_QUOTE_CHANNEL").map Channel.ofName).getD .default
  | .precision => ((vars "QUOTATION_CURRENCY_PRECISION").map PrecisionTable.parse).getD []
  | .number f => f.read vars

/-- What is read for a field depends on its variable alone. -/
theorem read_congr {f : Field} (h : vars' f.key = vars f.key) :
  f.read vars' = f.read vars
  := by
  cases f with
  | number f =>
    have h : vars' f.key = vars f.key := h
    change f.read vars' = f.read vars
    rw [NumberField.read, NumberField.read, number?, number?, h]
  | streamUrl => exact congrArg (fun v => (v.map Text.trim).getD "") h
  | catalogUrl => exact congrArg (fun v => (v.map Text.trim).getD "") h
  | channel => exact congrArg (fun v => (v.map Channel.ofName).getD .default) h
  | precision => exact congrArg (fun v => (v.map PrecisionTable.parse).getD []) h

/-- All fields. -/
def all : List Field :=
  [.streamUrl, .catalogUrl, .channel, .precision] ++
    [.depth, .keepalive, .eventBuffer, .refresh, .retry, .grace, .timeout, .quoteTtl,
      .demandWindow, .httpPort].map .number

theorem mem_all (f : Field) :
  f ∈ all
  := by
  cases f with
  | number f => cases f <;> simp [all]
  | _ => simp [all]

/-- No variable belongs to two fields. -/
theorem key_injective :
  Function.Injective key
  := by
  have hn : (all.map key).Nodup := by decide +kernel
  intro f g h
  apply List.inj_on_of_nodup_map hn (mem_all f) (mem_all g) h

end Field

/-- The fields are all there is to the settings. -/
theorem eq_of_get_eq (h : ∀ f : Field, f.get settings' = f.get settings) :
  settings' = settings
  := by
  obtain ⟨⟨url, channel, depth, keepalive, eventBuffer⟩,
    ⟨catalogUrl, refresh, retry, grace, timeout⟩, ⟨ttl, demandWindow⟩, httpPort, precision⟩ :=
    settings
  obtain rfl : _ = url := h .streamUrl
  obtain rfl : _ = channel := h .channel
  obtain rfl : _ = depth := h (.number .depth)
  obtain rfl : _ = keepalive := h (.number .keepalive)
  obtain rfl : _ = eventBuffer := h (.number .eventBuffer)
  obtain rfl : _ = catalogUrl := h .catalogUrl
  obtain rfl : _ = refresh := h (.number .refresh)
  obtain rfl : _ = retry := h (.number .retry)
  obtain rfl : _ = grace := h (.number .grace)
  obtain rfl : _ = timeout := h (.number .timeout)
  obtain rfl : _ = ttl := h (.number .quoteTtl)
  obtain rfl : _ = demandWindow := h (.number .demandWindow)
  obtain rfl : _ = httpPort := h (.number .httpPort)
  obtain rfl : _ = precision := h .precision
  rfl

/-! ### The settings that variables describe -/

/-- What is reported of variables that are refused: the first that is wrong with them. -/
inductive Refuses (vars : Variables) : Error → Prop where
  | stream {e : Error} (h : AddressFault vars streamUrlKey streamSchemes e) : Refuses vars e
  | catalog {e : Error} (hs : ∀ e', ¬ AddressFault vars streamUrlKey streamSchemes e')
      (h : AddressFault vars catalogUrlKey catalogSchemes e) : Refuses vars e
  | keepalive (hs : ∀ e', ¬ AddressFault vars streamUrlKey streamSchemes e')
      (hc : ∀ e', ¬ AddressFault vars catalogUrlKey catalogSchemes e')
      (h : HoldsCount vars keepaliveKey max64 0) : Refuses vars (.zero keepaliveKey)

/-- What settings are when variables are accepted: every field is read from its own variable. -/
structure Accepts (vars : Variables) (settings : Settings) : Prop where
  stream : HoldsAddress vars streamUrlKey streamSchemes settings.stream.url
  catalog : HoldsAddress vars catalogUrlKey catalogSchemes settings.catalog.url
  keepalive : 0 < settings.stream.keepalive
  get_eq : ∀ f : Field, f.get settings = f.read vars

theorem millisOr_eq_zero_iff {absent : Nat} (ha : 0 < absent) :
  millisOr vars name absent = 0 ↔ HoldsCount vars name max64 0
  := by
  rw [millisOr, ← number?_eq_some_iff]
  cases number? vars name max64 with
  | none =>
    constructor
    · intro h
      have h : absent = 0 := h
      omega
    · intro h
      cases h
  | some n =>
    rw [Option.map_some, Option.getD_some, Duration.millis, Option.some_inj]
    omega

theorem exists_address (h : ∀ e, ¬ AddressFault vars name schemes e) :
  ∃ url, address vars name schemes = .ok url
  := by
  obtain ⟨url, hu, -⟩ | ⟨e, -, hf⟩ := address_cases vars name schemes
  · use url
  · apply absurd hf (h e)

theorem ofVariables_of_refuses (h : Refuses vars e) :
  ofVariables vars = .error e
  := by
  rw [ofVariables]
  cases h with
  | stream h =>
    rw [address_eq_error_iff.2 h]
    rfl
  | catalog hs h =>
    obtain ⟨streamUrl, hs⟩ := exists_address hs
    rw [hs, address_eq_error_iff.2 h]
    rfl
  | keepalive hs hc h =>
    obtain ⟨streamUrl, hs⟩ := exists_address hs
    obtain ⟨catalogUrl, hc⟩ := exists_address hc
    rw [hs, hc]
    have hd : 0 < Duration.millis 4000 := by decide
    exact if_pos ((millisOr_eq_zero_iff hd).2 h)

/-- Variables are refused, or there are settings that they are accepted for. -/
theorem refuses_or_accepts (vars : Variables) :
  (∃ e, Refuses vars e) ∨ ∃ settings, ofVariables vars = .ok settings ∧ Accepts vars settings
  := by
  obtain ⟨streamUrl, hs, hsa⟩ | ⟨e, -, hf⟩ := address_cases vars streamUrlKey streamSchemes
  · obtain ⟨catalogUrl, hc, hca⟩ | ⟨e, -, hf⟩ := address_cases vars catalogUrlKey catalogSchemes
    · by_cases hk : millisOr vars keepaliveKey (Duration.millis 4000) = 0
      · exact Or.inl ⟨_, .keepalive (fun _ h => h.not_holds hsa) (fun _ h => h.not_holds hca)
          ((millisOr_eq_zero_iff (by decide)).1 hk)⟩
      · right
        rw [ofVariables, hs, hc]
        refine ⟨_, if_neg hk, hsa, hca, Nat.pos_of_ne_zero hk, ?_⟩
        obtain ⟨v, hv, -, rfl, -⟩ := hsa
        obtain ⟨v', hv', -, rfl, -⟩ := hca
        intro f
        cases f with
        | streamUrl =>
          rw [Field.read, hv]
          rfl
        | catalogUrl =>
          rw [Field.read, hv']
          rfl
        | channel => rfl
        | precision => rfl
        | number f =>
          rw [Field.read, NumberField.read]
          cases f with
          | depth =>
            change numberOr vars NumberField.depth.key NumberField.depth.limit _ = _
            rw [numberOr]
            cases number? vars NumberField.depth.key NumberField.depth.limit <;> rfl
          | eventBuffer =>
            change max 1 (numberOr vars NumberField.eventBuffer.key NumberField.eventBuffer.limit _)
              = _
            rw [numberOr]
            cases number? vars NumberField.eventBuffer.key NumberField.eventBuffer.limit <;> rfl
          | httpPort =>
            change numberOr vars NumberField.httpPort.key NumberField.httpPort.limit _ = _
            rw [numberOr]
            cases number? vars NumberField.httpPort.key NumberField.httpPort.limit <;> rfl
          | _ => rfl
    · exact Or.inl ⟨e, .catalog (fun _ h => h.not_holds hsa) hf⟩
  · exact Or.inl ⟨e, .stream hf⟩

theorem Accepts.not_refuses (h : Accepts vars settings) :
  ¬ Refuses vars e
  := by
  intro hr
  cases hr with
  | stream hf => apply hf.not_holds h.stream
  | catalog _ hf => apply hf.not_holds h.catalog
  | keepalive _ _ hz =>
    have hk : settings.stream.keepalive = NumberField.keepalive.read vars :=
      h.get_eq (.number .keepalive)
    have hn : number? vars NumberField.keepalive.key NumberField.keepalive.limit = some 0 :=
      number?_eq_some_iff.2 hz
    rw [NumberField.read, hn] at hk
    have hk : settings.stream.keepalive = 0 := hk
    apply Nat.ne_of_gt h.keepalive hk

theorem Accepts.unique (h : Accepts vars settings) (h' : Accepts vars settings') :
  settings' = settings
  := by
  apply eq_of_get_eq
  intro f
  rw [h.get_eq, h'.get_eq]

theorem ofVariables_eq_error_iff :
  ofVariables vars = .error e ↔ Refuses vars e
  := by
  constructor
  · intro h
    obtain ⟨e', hr⟩ | ⟨settings, hs, -⟩ := refuses_or_accepts vars
    · obtain rfl := Except.error.inj (h.symm.trans (ofVariables_of_refuses hr))
      apply hr
    · cases h.symm.trans hs
  · apply ofVariables_of_refuses

theorem ofVariables_eq_ok_iff :
  ofVariables vars = .ok settings ↔ Accepts vars settings
  := by
  obtain ⟨e, hr⟩ | ⟨settings', hs, ha⟩ := refuses_or_accepts vars
  · rw [ofVariables_of_refuses hr]
    constructor
    · intro h
      cases h
    · intro ha
      apply (ha.not_refuses hr).elim
  · rw [hs, Except.ok.injEq]
    constructor
    · rintro rfl
      apply ha
    · intro h
      apply h.unique ha

theorem Accepts.holds (h : Accepts vars settings) (f : NumberField) :
  f.Holds vars (f.get settings)
  := by
  have hf : f.get settings = f.read vars := h.get_eq (.number f)
  rw [hf]
  apply f.holds_read

/-- A number that counts seconds is a span of whole seconds. -/
theorem Accepts.exists_seconds (h : Accepts vars settings) {f : NumberField}
    (hf : ∀ n, f.ofCount n = Duration.seconds n) {k : Nat} (ha : f.absent = Duration.seconds k) :
  ∃ n, f.get settings = Duration.seconds n
  := by
  obtain ⟨n, -, hn⟩ | ⟨-, hn⟩ := h.holds f
  · use n
    rw [hn, hf]
  · use k
    rw [hn, ha]

theorem Accepts.one_le_eventBuffer (h : Accepts vars settings) :
  1 ≤ settings.stream.eventBuffer
  := by
  obtain ⟨n, -, hb⟩ | ⟨-, hb⟩ := h.holds .eventBuffer
  · have hb : settings.stream.eventBuffer = max 1 n := hb
    omega
  · have hb : settings.stream.eventBuffer = 1024 := hb
    omega

/-- A field is the same for any variables that agree on its own. -/
theorem Accepts.get_congr (h : Accepts vars settings) (h' : Accepts vars' settings') {f : Field}
    (hf : vars' f.key = vars f.key) :
  f.get settings' = f.get settings
  := by
  rw [h.get_eq, h'.get_eq, Field.read_congr hf]

/-- Something is wrong with the address of the stream, or with the address of the catalog, or the
keepalive interval is zero. -/
theorem exists_refuses_iff :
  (∃ e, Refuses vars e) ↔
    (∃ e, AddressFault vars streamUrlKey streamSchemes e) ∨
      (∃ e, AddressFault vars catalogUrlKey catalogSchemes e) ∨ HoldsCount vars keepaliveKey max64 0
  := by
  constructor
  · rintro ⟨e, hr⟩
    cases hr with
    | stream h => exact Or.inl ⟨e, h⟩
    | catalog _ h => exact Or.inr (Or.inl ⟨e, h⟩)
    | keepalive _ _ h => exact Or.inr (Or.inr h)
  · intro h
    by_cases hs : ∃ e, AddressFault vars streamUrlKey streamSchemes e
    · obtain ⟨e, hs⟩ := hs
      exact ⟨e, .stream hs⟩
    · by_cases hc : ∃ e, AddressFault vars catalogUrlKey catalogSchemes e
      · obtain ⟨e, hc⟩ := hc
        exact ⟨e, .catalog (not_exists.1 hs) hc⟩
      · have hz := (h.resolve_left hs).resolve_left hc
        exact ⟨_, .keepalive (not_exists.1 hs) (not_exists.1 hc) hz⟩

/-- Variables are refused for the first of their faults, and without one they are accepted.  Then
the keepalive interval is positive, there is room for an event, both addresses are those of their
variables, and every number is that of its variable or else its default.  Where two lookups that
are accepted differ in one variable, the settings differ in its field at most. -/
theorem ofVariables_cases (vars : Variables) :
  (∀ e, ofVariables vars = .error e ↔ Refuses vars e) ∧
  ((∃ e, ofVariables vars = .error e) ↔
    (∃ e, AddressFault vars streamUrlKey streamSchemes e) ∨
      (∃ e, AddressFault vars catalogUrlKey catalogSchemes e) ∨
      HoldsCount vars keepaliveKey max64 0) ∧
  ∀ settings, ofVariables vars = .ok settings →
    0 < settings.stream.keepalive ∧
    1 ≤ settings.stream.eventBuffer ∧
    HoldsAddress vars streamUrlKey streamSchemes settings.stream.url ∧
    HoldsAddress vars catalogUrlKey catalogSchemes settings.catalog.url ∧
    (∀ f : NumberField, f.Holds vars (f.get settings)) ∧
    ∀ vars' settings', ofVariables vars' = .ok settings' →
      ∀ name, (∀ key, key ≠ name → vars' key = vars key) →
        (∀ f : Field, f.key = name → ∀ g, g ≠ f → g.get settings' = g.get settings) ∧
        ((∀ f : Field, f.key ≠ name) → settings' = settings)
  := by
  refine ⟨fun _ => ofVariables_eq_error_iff, ?_, ?_⟩
  · simp only [ofVariables_eq_error_iff]
    apply exists_refuses_iff
  · intro settings h
    have h := ofVariables_eq_ok_iff.1 h
    refine ⟨h.keepalive, h.one_le_eventBuffer, h.stream, h.catalog, h.holds, ?_⟩
    intro vars' settings' h' name hv
    have h' := ofVariables_eq_ok_iff.1 h'
    constructor
    · rintro f rfl g hg
      apply h.get_congr h'
      apply hv
      intro he
      apply hg (Field.key_injective he)
    · intro hn
      apply eq_of_get_eq
      intro f
      apply h.get_congr h' (hv _ (hn f))

end QuoteFeed.Settings

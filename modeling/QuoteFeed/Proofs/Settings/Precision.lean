import QuoteFeed.Proofs.History
import QuoteFeed.Proofs.Insertions
import QuoteFeed.Proofs.Service.Faults
import QuoteFeed.Proofs.Settings
import QuoteFeed.Proofs.Text.Letter
import QuoteFeed.Proofs.Text.Parts
import QuoteFeed.Surface.Respond

/-!
# The precision of a currency

The text of the precisions is a list of entries between commas.  An entry gives a currency its
precision if it is well formed and names the currency, in any case (`PrecisionTable.Gives`).  The
precision of a currency is that of the last entry that gives it one, or the default
(`PrecisionTable.find_eq_iff`), and these are the precisions of the rules in an answer for the markets
(`precision_of_text`).
-/

namespace QuoteFeed

namespace PrecisionTable

/-! ### Entries -/

/-- The entry is well formed: it has a name, which is what stands before its first colon and is not
blank, and a precision, which is a count of 32 bits after that colon.  There may be blanks around
both. -/
def Describes (entry name : List Char) (places : Nat) : Prop :=
  ∃ before after, entry = before ++ ':' :: after ∧ ':' ∉ before ∧ Text.trimChars before = name ∧
    name ≠ [] ∧ Numeral.IsCount Numeral.max32 (Text.trimChars after) places

/-- The entry is not well formed. -/
def Malformed (entry : List Char) : Prop :=
  ∀ name places, ¬ Describes entry name places

/-- The entry gives the currency a precision: it is well formed, and its name is that of the currency
up to the case of the letters `A` to `Z`. -/
def Gives (entry : List Char) (symbol : String) (places : Nat) : Prop :=
  ∃ name, Describes entry name places ∧ List.Forall₂ Text.SameLetter name symbol.toList

variable {entry name : List Char} {symbol : String} {places : Nat}

/-- A well-formed entry is read, and no other. -/
theorem entry?_eq_some_iff {key : String} :
  entry? entry = some (key, places) ↔
    ∃ name, Describes entry name places ∧ Text.upperCase (String.ofList name) = key
  := by
  have hread (before after : List Char) :
      (if (Text.trimChars before).isEmpty then none
        else (Numeral.unsigned? Numeral.max32 (Text.trimChars after)).map
          (Text.upperCase (String.ofList (Text.trimChars before)), ·)) = some (key, places) ↔
        Text.trimChars before ≠ [] ∧ Numeral.IsCount Numeral.max32 (Text.trimChars after) places ∧
          Text.upperCase (String.ofList (Text.trimChars before)) = key := by
    rw [← Numeral.unsigned?_eq_some_iff]
    cases hn : Text.trimChars before with
    | nil => simp
    | cons c name =>
      cases Numeral.unsigned? Numeral.max32 (Text.trimChars after) with
      | none => simp
      | some n => simp [and_comm]
  constructor
  · intro h
    unfold entry? at h
    cases hd : entry.dropWhile (· ≠ ':') with
    | nil =>
      rw [hd] at h
      cases h
    | cons c after =>
      rw [hd] at h
      obtain ⟨hname, hcount, hkey⟩ := (hread _ after).1 h
      obtain ⟨he, hcolon⟩ := split_first_iff.1 ⟨rfl, c, hd⟩
      exact ⟨_, ⟨_, after, he, hcolon, rfl, hname, hcount⟩, hkey⟩
  · rintro ⟨name, ⟨before, after, he, hcolon, rfl, hname, hcount⟩, hkey⟩
    obtain ⟨rfl, c, hd⟩ := split_first_iff.2 ⟨he, hcolon⟩
    unfold entry?
    rw [hd]
    exact (hread _ after).2 ⟨hname, hcount, hkey⟩

/-- An entry is passed over exactly if it is malformed. -/
theorem entry?_of_malformed (h : Malformed entry) :
  entry? entry = none
  := by
  rw [Option.eq_none_iff_forall_ne_some]
  rintro ⟨key, places⟩ he
  obtain ⟨name, hd, -⟩ := entry?_eq_some_iff.1 he
  exact h name places hd

/-- An entry gives a currency a precision exactly if it is read as one for its name in upper case. -/
theorem gives_iff :
  Gives entry symbol places ↔ entry? entry = some (Text.upperCase symbol, places)
  := by
  simp only [entry?_eq_some_iff, Text.upperCase_eq_iff, String.toList_ofList, Gives]

/-! ### The last entry of a currency -/

/-- The precision of a currency: that of the last entry that gives it one, or eight if there is
none. -/
inductive HasPrecision (entries : List (List Char)) (symbol : String) : Nat → Prop where
  | last {entry : List Char} {places : Nat} (hg : Gives entry symbol places)
      (hlast : Since (fun later => ∀ n, ¬ Gives later symbol n) entries entry) :
      HasPrecision entries symbol places
  | default (h : ∀ entry ∈ entries, ∀ n, ¬ Gives entry symbol n) : HasPrecision entries symbol 8

variable {entries : List (List Char)}

theorem hasPrecision_nil :
  HasPrecision [] symbol places ↔ places = 8
  := by
  constructor
  · intro h
    cases h with
    | last _ hlast => exact absurd hlast not_since_nil
    | default => rfl
  · rintro rfl
    apply HasPrecision.default
    simp

/-- One more entry decides, if it gives the currency a precision. -/
theorem hasPrecision_concat :
  HasPrecision (entries ++ [entry]) symbol places ↔
    Gives entry symbol places ∨ (∀ n, ¬ Gives entry symbol n) ∧ HasPrecision entries symbol places
  := by
  constructor
  · intro h
    cases h with
    | last hg hlast =>
      obtain rfl | ⟨hne, hlast⟩ := since_concat.1 hlast
      · exact Or.inl hg
      · exact Or.inr ⟨hne, .last hg hlast⟩
    | default h => exact Or.inr ⟨h entry (by simp), .default fun e he => h e (by simp [he])⟩
  · rintro (hg | ⟨hne, h⟩)
    · exact .last hg (since_concat.2 (Or.inl rfl))
    · cases h with
      | last hg hlast => exact .last hg (since_concat.2 (Or.inr ⟨hne, hlast⟩))
      | default h =>
        apply HasPrecision.default
        intro e he
        obtain he | he := List.mem_append.1 he
        · exact h e he
        · rwa [List.mem_singleton.1 he]

theorem find_concat (t : PrecisionTable) (key : String) (n : Nat) (symbol : String) :
  find (t ++ [(key, n)]) symbol = if key = Text.upperCase symbol then n else find t symbol
  := by
  rw [find, List.reverse_append, List.reverse_singleton, List.singleton_append, List.find?_cons]
  by_cases h : key = Text.upperCase symbol
  · simp [h]
  · simp [h, find]

/-- The table finds the precision of a currency. -/
theorem find_eq_iff :
  find (entries.filterMap entry?) symbol = places ↔ HasPrecision entries symbol places
  := by
  induction entries using List.reverseRecOn with
  | nil =>
    rw [hasPrecision_nil, eq_comm]
    rfl
  | append_singleton entries entry ih =>
    rw [hasPrecision_concat, ← ih, List.filterMap_append]
    simp only [gives_iff]
    cases he : entry? entry with
    | none => simp [he]
    | some e =>
      obtain ⟨key, n⟩ := e
      have hone : [entry].filterMap entry? = [(key, n)] := by simp [he]
      rw [hone, find_concat]
      by_cases hk : key = Text.upperCase symbol
      · simp [hk]
      · simp [hk]

/-- Malformed entries make no difference to any currency. -/
theorem find_of_differBy {entries' : List (List Char)} (h : DifferBy Malformed entries entries')
    (symbol : String) :
  find (entries.filterMap entry?) symbol = find (entries'.filterMap entry?) symbol
  := by
  rw [h.filterMap_eq fun _ => entry?_of_malformed]

end PrecisionTable

/-! ### Answers for the markets -/

theorem Service.respond_markets (env : Environment) (s : Service) {r : Request}
    (hm : r.method = "GET") (hp : String.ofList r.path = "/markets") :
  s.respond env r = (s.respondMarkets env, s)
  := by
  rw [respond, read?, hp]
  simp [hm]

/-- The precisions that a text gives, by its entries between commas: every currency has that of the
last well-formed entry that names it, in any case, or else eight.  Malformed entries, wherever they
are, make no difference.  If the settings are read from variables with this text, then the answer
for the markets lists those of the live catalog, each with its rules at the precision that its base
currency has by the text. -/
theorem precision_of_text (raw : String) :
  ∃ entries, IsParted ',' raw.toList entries ∧
    (∀ symbol places, (PrecisionTable.parse raw).find symbol = places ↔
      PrecisionTable.HasPrecision entries symbol places) ∧
    (∀ raw' entries', IsParted ',' raw'.toList entries' →
      DifferBy PrecisionTable.Malformed entries entries' →
        ∀ symbol, (PrecisionTable.parse raw').find symbol = (PrecisionTable.parse raw).find symbol) ∧
    ∀ (vars : Variables) (env : Environment), vars "QUOTATION_CURRENCY_PRECISION" = some raw →
      Settings.ofVariables vars = .ok env.settings →
      ∀ (s : Service) (r : Request), r.method = "GET" → String.ofList r.path = "/markets" →
        ∃ views, s.respond env r = (.json 200 (.array views), s) ∧
          List.Forall₂ (fun m view => ∃ places,
            PrecisionTable.HasPrecision entries m.base places ∧
              view = .record (m.members ++ [("trading_rules", (m.rules places).toJson)]))
            (s.catalog.current s.now) views
  := by
  refine ⟨splitAtMark ',' raw.toList, splitAtMark_eq_iff.1 rfl, ?_, ?_, ?_⟩
  · intro symbol places
    exact PrecisionTable.find_eq_iff
  · intro raw' entries' hparted hdiffer symbol
    rw [PrecisionTable.parse, splitAtMark_eq_iff.2 hparted]
    exact (PrecisionTable.find_of_differBy hdiffer symbol).symm
  · intro vars env hraw haccepted s r hm hp
    have htable : env.settings.precision = PrecisionTable.parse raw := by
      have hget := (Settings.ofVariables_eq_ok_iff.1 haccepted).get_eq .precision
      rw [Settings.Field.read, hraw] at hget
      exact hget
    refine ⟨_, s.respond_markets env hm hp, ?_⟩
    rw [List.forall₂_map_right_iff, List.forall₂_same]
    intro m _
    refine ⟨_, PrecisionTable.find_eq_iff.1 rfl, ?_⟩
    rw [Service.marketView, htable]
    rfl

/-- Variables with precisions of which some are malformed. -/
def patchy : Variables := fun key =>
  if key = "QUOTATION_CURRENCY_PRECISION" then some "BTC:8,bad,:4,btc: +6 ,BTC:x"
  else Service.addresses key

/-- The environment with these precisions. -/
def Environment.patchy : Environment :=
  { Environment.standard with
    settings := { Environment.standard.settings with precision := [("BTC", 8), ("BTC", 6)] } }

/-- The malformed entry for `BTC` does not hide the one for `btc` before it. -/
theorem markets_of_patchy :
  let s := (Service.initial .patchy Service.listed).run .patchy [.refresh]
  patchy "QUOTATION_CURRENCY_PRECISION" = some "BTC:8,bad,:4,btc: +6 ,BTC:x" ∧
    Settings.ofVariables patchy = .ok Environment.patchy.settings ∧
    s.respond .patchy ⟨"GET", "/markets"⟩ =
      (.json 200 (.array (Service.listed.map fun m =>
        .record (m.members ++ [("trading_rules", (m.rules 6).toJson)]))), s)
  := by
  intro s
  have hraw : patchy "QUOTATION_CURRENCY_PRECISION" = some "BTC:8,bad,:4,btc: +6 ,BTC:x" := rfl
  have haccepted : Settings.ofVariables patchy = .ok Environment.patchy.settings := by
    have hs : Settings.address patchy Settings.streamUrlKey Settings.streamSchemes =
        .ok "wss://stream.exchange.test" := by decide +kernel
    have hc : Settings.address patchy Settings.catalogUrlKey Settings.catalogSchemes =
        .ok "https://exchange.test/markets" := by decide +kernel
    have ht : PrecisionTable.parse "BTC:8,bad,:4,btc: +6 ,BTC:x" = [("BTC", 8), ("BTC", 6)] := by
      decide +kernel
    rw [Settings.ofVariables, hs, hc]
    simp only [hraw, Option.map_some, ht]
    rfl
  have hfind : (PrecisionTable.parse "BTC:8,bad,:4,btc: +6 ,BTC:x").find "BTC" = 6 := by
    decide +kernel
  have hlisted : s.catalog.current s.now = Service.listed := by decide +kernel
  obtain ⟨entries, -, hprecision, -, hmarkets⟩ := precision_of_text "BTC:8,bad,:4,btc: +6 ,BTC:x"
  obtain ⟨views, hr, hviews⟩ := hmarkets patchy .patchy hraw haccepted s ⟨"GET", "/markets"⟩ rfl
    (by decide +kernel)
  refine ⟨hraw, haccepted, ?_⟩
  rw [hlisted] at hviews
  cases hviews with
  | cons hview hnil =>
    cases hnil
    obtain ⟨places, hp, rfl⟩ := hview
    rw [hr, ← (hprecision "BTC" places).2 hp, hfind]
    rfl

end QuoteFeed

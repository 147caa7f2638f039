import FortranMarkup.Proofs.Settings.Values

/-!
# The first setting at fault

Settings are read in the order of the keys and the reading stops at the first fault. Each fault has
a place, which is the keys on the way to it, and places have an order of their own
(`Place.Before`). The error of a table is that of the fault whose place comes first
(`Settings.failsFirst_applyTable`).

What faults a table has is said without the reader (`Settings.Offends`). One lemma carries the
argument for the file and for both of its inner tables: a fold over entries in the order of their
keys fails with the first fault of the entries when each step does (`Settings.failsFirst_foldlM`).
-/

namespace FortranMarkup

/-! ## Places -/

/-- Where a setting stands: the keys on the way to it. -/
abbrev Place := List String

/-- Places are in the order of their keys, and a table comes before its entries. -/
def Place.Before : Place → Place → Prop := List.Lex (· < ·)

namespace Place

theorem before_of_lt {key other : String} (less : key < other) (place place' : Place) :
    Before (key :: place) (other :: place') :=
  .rel less

theorem not_before_of_lt {key other : String} (less : key < other) (place place' : Place) :
    ¬Before (other :: place') (key :: place) := by
  intro before
  cases before with
  | cons => exact String.lt_irrefl _ less
  | rel greater => exact String.lt_asymm less greater

theorem before_cons_iff {key : String} {place place' : Place} :
    Before (key :: place) (key :: place') ↔ Before place place' := by
  constructor
  · intro before
    cases before with
    | cons before => exact before
    | rel less => exact absurd less (String.lt_irrefl _)
  · exact .cons

theorem not_before_self (place : Place) : ¬Before place place := by
  induction place with
  | nil => nofun
  | cons key place ih => rwa [before_cons_iff]

end Place

namespace Toml

/-- The entries of a value; it has some only if it is a table. -/
def Value.entries : Value → Table
  | table entries => entries
  | _ => []

/-- Entries stand in the order of their keys, and no key comes twice. Keys are ordered by their code
points, which is the order of their bytes in UTF-8 too. -/
def Ascending (entries : Table) : Prop :=
  entries.Pairwise (·.1 < ·.1)

instance (entries : Table) : Decidable (Ascending entries) :=
  inferInstanceAs (Decidable (entries.Pairwise _))

/-- A table and the tables in it have their entries in order. -/
structure Ordered (table : Table) : Prop where
  keys : Ascending table
  inner : ∀ entry ∈ table, Ascending entry.2.entries

instance (table : Table) : Decidable (Ordered table) :=
  decidable_of_iff (Ascending table ∧ ∀ entry ∈ table, Ascending entry.2.entries)
    ⟨fun both => ⟨both.1, both.2⟩, fun ordered => ⟨ordered.keys, ordered.inner⟩⟩

end Toml

namespace Settings

/-! ## Faults -/

/-- A value is at fault as a source form: it is a text that names none, or no text. -/
inductive FormatFault : Toml.Value → SettingsError → Prop
  | unknown {name : String} (noForm : ∀ form, ¬FormOf (.string name) form) :
      FormatFault (.string name) (.unknownForm name)
  | kind {value : Toml.Value} (noText : ∀ text, value ≠ .string text) :
      FormatFault value (.invalidValue "format" value)

/-- An entry of the table `fold` is at fault: it should stand for a truth value and does not. -/
inductive FoldFault : String × Toml.Value → SettingsError → Prop
  | truth {key : String} {value : Toml.Value} (known : key ∈ ["comment", "compact"])
      (noTruth : ∀ truth, ¬TruthOf value truth) :
      FoldFault (key, value) (.invalidValue ("fold." ++ key) value)

/-- An entry of the table `keywords` is at fault: it does not stand for words, whatever its key. -/
inductive KeywordsFault : String × Toml.Value → SettingsError → Prop
  | words {key : String} {value culprit : Toml.Value} (fault : WordsFault value culprit) :
      KeywordsFault (key, value) (.invalidValue key culprit)

/-- A value is at fault as a table: it is none, or one of its entries is at fault. -/
inductive TableFault (key : String) (inner : String × Toml.Value → SettingsError → Prop) :
    Toml.Value → Place → SettingsError → Prop
  | kind {value : Toml.Value} (noTable : ∀ entries, value ≠ .table entries) :
      TableFault key inner value [] (.invalidValue key value)
  | entry {entries : Toml.Table} {entry : String × Toml.Value} {error : SettingsError}
      (mem : entry ∈ entries) (fault : inner entry error) :
      TableFault key inner (.table entries) [entry.1] error

/-- An entry of a settings file is at fault at a place. -/
inductive EntryFault : String × Toml.Value → Place → SettingsError → Prop
  | format {value : Toml.Value} {error : SettingsError} (fault : FormatFault value error) :
      EntryFault ("format", value) ["format"] error
  | fold {value : Toml.Value} {place : Place} {error : SettingsError}
      (fault : TableFault "fold" FoldFault value place error) :
      EntryFault ("fold", value) ("fold" :: place) error
  | keywords {value : Toml.Value} {place : Place} {error : SettingsError}
      (fault : TableFault "keywords" KeywordsFault value place error) :
      EntryFault ("keywords", value) ("keywords" :: place) error

/-- One of some entries is at fault at a place. -/
def AnyFault (faults : String × Toml.Value → Place → SettingsError → Prop)
    (entries : Toml.Table) (place : Place) (error : SettingsError) : Prop :=
  ∃ entry ∈ entries, faults entry place error

theorem anyFault_cons {faults : String × Toml.Value → Place → SettingsError → Prop}
    {entry : String × Toml.Value} {entries : Toml.Table} {place : Place} {error : SettingsError} :
    AnyFault faults (entry :: entries) place error ↔
      faults entry place error ∨ AnyFault faults entries place error := by
  simp [AnyFault]

/-- A settings file is at fault at a place. -/
def Offends (table : Toml.Table) (place : Place) (error : SettingsError) : Prop :=
  AnyFault EntryFault table place error

/-- A fault is one of some faults, and none of them comes before it. -/
structure FirstOf (faults : Place → SettingsError → Prop) (place : Place) (error : SettingsError) :
    Prop where
  fault : faults place error
  first : ∀ place' error', faults place' error' → ¬Place.Before place' place

/-! ## Failing with the first fault -/

/-- An outcome is the error of the first fault; where it is settings, there is no fault. -/
structure FailsFirst (outcome : Except SettingsError Settings)
    (faults : Place → SettingsError → Prop) : Prop where
  error : ∀ error, outcome = .error error ↔ ∃ place, FirstOf faults place error
  ok : ∀ settings, outcome = .ok settings → ∀ place error, ¬faults place error

namespace FailsFirst

variable {outcome : Except SettingsError Settings} {faults faults' : Place → SettingsError → Prop}

theorem congr (fails : FailsFirst outcome faults)
    (iff : ∀ place error, faults' place error ↔ faults place error) :
    FailsFirst outcome faults' := by
  obtain rfl : faults' = faults := by
    funext place error
    exact propext (iff place error)
  exact fails

theorem none (settings : Settings) : FailsFirst (.ok settings) (fun _ _ => False) where
  error _ := ⟨nofun, fun ⟨_, first⟩ => first.fault.elim⟩
  ok _ _ _ _ := id

/-- Where all faults have one place, the error need not be told apart by its place. -/
theorem single {fault : SettingsError → Prop} (place : Place)
    (iff : ∀ error, outcome = .error error ↔ fault error) :
    FailsFirst outcome (fun place' error => place' = place ∧ fault error) where
  error error := by
    rw [iff]
    constructor
    · intro own
      refine ⟨place, ⟨rfl, own⟩, ?_⟩
      rintro place' error' ⟨rfl, -⟩
      exact Place.not_before_self place'
    · rintro ⟨place', ⟨-, own⟩, -⟩
      exact own
  ok := by
    rintro settings rfl place' error ⟨-, own⟩
    exact nomatch (iff error).2 own

/-- Faults under one key are in the order of what follows the key. -/
theorem under (fails : FailsFirst outcome faults) (key : String) :
    FailsFirst outcome (fun place error => ∃ tail, place = key :: tail ∧ faults tail error) where
  error error := by
    rw [fails.error]
    constructor
    · rintro ⟨tail, fault, first⟩
      refine ⟨key :: tail, ⟨tail, rfl, fault⟩, ?_⟩
      rintro _ error' ⟨tail', rfl, fault'⟩
      rw [Place.before_cons_iff]
      exact first tail' error' fault'
    · rintro ⟨_, ⟨tail, rfl, fault⟩, first⟩
      refine ⟨tail, fault, fun tail' error' fault' before => ?_⟩
      exact first (key :: tail') error' ⟨tail', rfl, fault'⟩ (Place.before_cons_iff.2 before)
  ok := by
    rintro settings same _ error ⟨tail, -, fault⟩
    exact fails.ok settings same tail error fault

/-- After a failure, faults that come later do not count. -/
theorem orLater {failure : SettingsError} {later : Place → SettingsError → Prop}
    (fails : FailsFirst (.error failure) faults)
    (comes : ∀ {place error place' error'}, faults place error → later place' error' →
      Place.Before place place' ∧ ¬Place.Before place' place) :
    FailsFirst (.error failure) (fun place error => faults place error ∨ later place error) where
  error error := by
    constructor
    · intro same
      obtain ⟨place, fault, first⟩ := (fails.error error).1 same
      refine ⟨place, .inl fault, ?_⟩
      rintro place' error' (fault' | fault')
      · exact first place' error' fault'
      · exact (comes fault fault').2
    · rintro ⟨place', fault' | fault', first'⟩
      · exact (fails.error error).2
          ⟨place', fault', fun place'' error'' own => first' place'' error'' (.inl own)⟩
      · obtain ⟨place, fault, -⟩ := (fails.error failure).1 rfl
        exact absurd (comes fault fault').1 (first' place failure (.inl fault))
  ok := nofun

end FailsFirst

section Fold

variable {step : Settings → String × Toml.Value → Except SettingsError Settings}
variable {faults : String × Toml.Value → Place → SettingsError → Prop}

/-- A fold over entries in the order of their keys fails with the first fault of all entries if each
step fails with the first fault of its own. -/
theorem failsFirst_foldlM {entries : Toml.Table}
    (each : ∀ entry ∈ entries, ∀ settings, FailsFirst (step settings entry) (faults entry))
    (heads : ∀ entry place error, faults entry place error → ∃ tail, place = entry.1 :: tail)
    (ascending : Toml.Ascending entries) (settings : Settings) :
    FailsFirst (entries.foldlM step settings) (AnyFault faults entries) := by
  induction entries generalizing settings with
  | nil => exact (FailsFirst.none settings).congr (by simp [AnyFault])
  | cons entry entries ih =>
    obtain ⟨least, ascending⟩ := List.pairwise_cons.1 ascending
    have own := each entry List.mem_cons_self settings
    have rest := ih (fun other mem => each other (List.mem_cons_of_mem _ mem)) ascending
    rw [List.foldlM_cons]
    cases stepped : step settings entry with
    | error failure =>
      rw [stepped] at own
      have later {place place' : Place} {error error' : SettingsError}
          (fault : faults entry place error)
          (fault' : AnyFault faults entries place' error') :
          Place.Before place place' ∧ ¬Place.Before place' place := by
        obtain ⟨other, mem, fault'⟩ := fault'
        obtain ⟨tail, rfl⟩ := heads _ _ _ fault
        obtain ⟨tail', rfl⟩ := heads _ _ _ fault'
        have less : entry.1 < other.1 := least other mem
        exact ⟨Place.before_of_lt less _ _, Place.not_before_of_lt less _ _⟩
      have fails : FailsFirst (.error failure) (fun place error =>
          faults entry place error ∨ AnyFault faults entries place error) := own.orLater later
      exact fails.congr fun _ _ => anyFault_cons
    | ok next =>
      refine (rest next).congr fun place error => ?_
      simp [anyFault_cons, own.ok next stepped]

end Fold

/-! ## Entries of the inner tables -/

theorem applyFold_unknown (settings : Settings) {key : String} (value : Toml.Value)
    (unknown : key ∉ ["comment", "compact"]) : applyFold settings (key, value) = .ok settings := by
  unfold applyFold
  split <;> simp_all

theorem applyFold_eq_error_iff (settings : Settings) (entry : String × Toml.Value)
    (error : SettingsError) :
    applyFold settings entry = .error error ↔ FoldFault entry error := by
  obtain ⟨key, value⟩ := entry
  by_cases known : key ∈ ["comment", "compact"]
  · have refused : applyFold settings (key, value) = .error error ↔
        truth? value = none ∧ error = .invalidValue ("fold." ++ key) value := by
      obtain rfl | rfl := by simpa using known
      all_goals cases read : truth? value <;> simp [applyFold, read, eq_comm]
    rw [refused, truth?_eq_none_iff]
    constructor
    · rintro ⟨noTruth, rfl⟩
      exact .truth known noTruth
    · rintro ⟨-, noTruth⟩
      exact ⟨noTruth, rfl⟩
  · rw [applyFold_unknown settings value known]
    refine ⟨nofun, ?_⟩
    rintro ⟨known', -⟩
    exact absurd known' known

theorem applyKeywords_eq_error_iff (settings : Settings) (entry : String × Toml.Value)
    (error : SettingsError) :
    applyKeywords settings entry = .error error ↔ KeywordsFault entry error := by
  obtain ⟨key, value⟩ := entry
  have refused : applyKeywords settings (key, value) = .error error ↔
      words? key value = .error error := by
    rw [applyKeywords]
    cases words? key value <;> simp [Except.map]
  rw [refused, words?_eq_error_iff]
  constructor
  · rintro ⟨culprit, fault, rfl⟩
    exact .words fault
  · rintro ⟨fault⟩
    exact ⟨_, fault, rfl⟩

/-! ## Entries of a settings file -/

theorem applyEntry_unknown (settings : Settings) {key : String} (value : Toml.Value)
    (unknown : key ∉ ["format", "fold", "keywords"]) :
    applyEntry settings (key, value) = .ok settings := by
  unfold applyEntry
  split <;> simp_all

theorem applyEntry_noTable (settings : Settings) {key : String} {value : Toml.Value}
    (known : key ∈ ["fold", "keywords"]) (noTable : ∀ entries, value ≠ .table entries) :
    applyEntry settings (key, value) = .error (.invalidValue key value) := by
  obtain rfl | rfl := by simpa using known
  all_goals
    cases value with
    | table entries => exact absurd rfl (noTable entries)
    | _ => rfl

theorem applyEntry_format_eq_error_iff (settings : Settings) (value : Toml.Value)
    (error : SettingsError) :
    applyEntry settings ("format", value) = .error error ↔ FormatFault value error := by
  constructor
  · intro refused
    cases value with
    | string name =>
      rw [applyEntry] at refused
      cases read : SourceForm.ofName? name with
      | none =>
        rw [read] at refused
        obtain rfl := Except.error.inj refused
        exact .unknown (ofName?_eq_none_iff.1 read)
      | some form => rw [read] at refused; cases refused
    | _ => obtain rfl := Except.error.inj refused; exact .kind fun _ => nofun
  · rintro (noForm | noText)
    · rw [applyEntry, ofName?_eq_none_iff.2 noForm]
    · cases value with
      | string text => exact absurd rfl (noText text)
      | _ => rfl

/-- The faults of an inner table are its kind, or those of its entries in the order of their keys.
-/
theorem failsFirst_table {step : Settings → String × Toml.Value → Except SettingsError Settings}
    {inner : String × Toml.Value → SettingsError → Prop} {settings : Settings} {key : String}
    {value : Toml.Value} (known : key ∈ ["fold", "keywords"])
    (steps : ∀ entries,
      applyEntry settings (key, .table entries) = entries.foldlM step settings)
    (each : ∀ settings entry error, step settings entry = .error error ↔ inner entry error)
    (ascending : Toml.Ascending value.entries) :
    FailsFirst (applyEntry settings (key, value)) (TableFault key inner value) := by
  by_cases table : ∃ entries, value = .table entries
  · obtain ⟨entries, rfl⟩ := table
    rw [steps]
    have own (entry : String × Toml.Value) (_ : entry ∈ entries) (settings : Settings) :
        FailsFirst (step settings entry)
          (fun place error => place = [entry.1] ∧ inner entry error) :=
      .single [entry.1] (each settings entry)
    refine (failsFirst_foldlM own (fun _ _ _ fault => ⟨[], fault.1⟩) ascending settings).congr
      fun place error => ⟨?_, ?_⟩
    · rintro (noTable | ⟨mem, fault⟩)
      · exact absurd rfl (noTable entries)
      · exact ⟨_, mem, rfl, fault⟩
    · rintro ⟨entry, mem, rfl, fault⟩
      exact .entry mem fault
  · have noTable : ∀ entries, value ≠ .table entries := fun entries same => table ⟨entries, same⟩
    rw [applyEntry_noTable settings known noTable]
    have own (error : SettingsError) : (.error (.invalidValue key value) : Except _ Settings) =
        .error error ↔ error = .invalidValue key value := by simp [eq_comm]
    refine (FailsFirst.single [] own).congr fun place error => ⟨?_, ?_⟩
    · rintro (_ | _)
      · exact ⟨rfl, rfl⟩
      · exact absurd rfl (noTable _)
    · rintro ⟨rfl, rfl⟩
      exact .kind noTable

theorem entryFault_iff {key : String} {value : Toml.Value} {place : Place}
    {error : SettingsError} :
    EntryFault (key, value) place error ↔
      (∃ tail, place = key :: tail ∧
        (key = "format" ∧ tail = [] ∧ FormatFault value error ∨
          key = "fold" ∧ TableFault "fold" FoldFault value tail error ∨
          key = "keywords" ∧ TableFault "keywords" KeywordsFault value tail error)) := by
  constructor
  · rintro (fault | fault | fault)
    · exact ⟨[], rfl, .inl ⟨rfl, rfl, fault⟩⟩
    · exact ⟨_, rfl, .inr (.inl ⟨rfl, fault⟩)⟩
    · exact ⟨_, rfl, .inr (.inr ⟨rfl, fault⟩)⟩
  · rintro ⟨tail, rfl, ⟨rfl, rfl, fault⟩ | ⟨rfl, fault⟩ | ⟨rfl, fault⟩⟩
    · exact .format fault
    · exact .fold fault
    · exact .keywords fault

theorem failsFirst_applyEntry (settings : Settings) {entry : String × Toml.Value}
    (ascending : Toml.Ascending entry.2.entries) :
    FailsFirst (applyEntry settings entry) (EntryFault entry) := by
  obtain ⟨key, value⟩ := entry
  by_cases format : key = "format"
  · subst format
    refine ((FailsFirst.single [] (applyEntry_format_eq_error_iff settings value)).under
      "format").congr fun place error => ?_
    simp [entryFault_iff]
  by_cases fold : key = "fold"
  · subst fold
    refine ((failsFirst_table (by decide) (fun _ => rfl) applyFold_eq_error_iff ascending).under
      "fold").congr fun place error => ?_
    simp [entryFault_iff]
  by_cases keywords : key = "keywords"
  · subst keywords
    refine ((failsFirst_table (by decide) (fun _ => rfl) applyKeywords_eq_error_iff
      ascending).under "keywords").congr fun place error => ?_
    simp [entryFault_iff]
  · have unknown : key ∉ ["format", "fold", "keywords"] := by simp [format, fold, keywords]
    rw [applyEntry_unknown settings value unknown]
    refine (FailsFirst.none settings).congr fun place error => ?_
    simp [entryFault_iff, format, fold, keywords]

theorem failsFirst_applyTable {table : Toml.Table} (ordered : Toml.Ordered table)
    (settings : Settings) :
    FailsFirst (applyTable settings table) (Offends table) := by
  have own (entry : String × Toml.Value) (mem : entry ∈ table) (settings : Settings) :=
    failsFirst_applyEntry settings (ordered.inner entry mem)
  refine failsFirst_foldlM own ?_ ordered.keys settings
  rintro entry place error (_ | _ | _)
  all_goals exact ⟨_, rfl⟩

end Settings

end FortranMarkup

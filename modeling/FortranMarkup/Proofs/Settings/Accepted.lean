import FortranMarkup.Proofs.Settings.Faults

/-!
# Which settings are accepted, and what they say

A table of settings is accepted exactly if it is well formed (`Settings.WellFormed`); then each
field is what the value of its key stands for, or its default (`Settings.Decodes`). Otherwise the
error is that of the first fault. `Settings.applyTable_outcome` says all of it of every table whose
entries stand in the order of their keys.

A fold over entries changes a field only at the entry of the field's key
(`Settings.reads_foldlM`). The lemma is used twice for a field of an inner table: for the entries of
the file, and for those of the inner table.
-/

namespace FortranMarkup.Settings

/-! ## Steps that succeed -/

section Inversion

variable {settings next : Settings} {key : String} {value : Toml.Value}

theorem applyFold_eq_ok (done : applyFold settings (key, value) = .ok next) :
    (key = "comment" ∧ ∃ truth, TruthOf value truth ∧
        next = { settings with foldComments := truth }) ∨
      (key = "compact" ∧ ∃ truth, TruthOf value truth ∧
        next = { settings with markWhite := truth }) ∨
      key ∉ ["comment", "compact"] ∧ next = settings := by
  by_cases known : key ∈ ["comment", "compact"]
  · obtain rfl | rfl := by simpa using known
    all_goals
      rw [applyFold] at done
      cases read : truth? value with
      | none => rw [read] at done; cases done
      | some truth =>
        rw [read] at done
        obtain rfl := Except.ok.inj done
        simp [truth?_eq_some_iff.1 read]
  · rw [applyFold_unknown settings value known] at done
    obtain rfl := Except.ok.inj done
    exact .inr (.inr ⟨known, rfl⟩)

theorem applyKeywords_eq_ok (done : applyKeywords settings (key, value) = .ok next) :
    ∃ words, WordsOf value words ∧
      (key = "primary" ∧ next = { settings with primary := words } ∨
        key = "intrinsic" ∧ next = { settings with intrinsic := words } ∨
        key = "extended" ∧ next = { settings with extended := words } ∨
        key ∉ ["primary", "intrinsic", "extended"] ∧ next = settings) := by
  rw [applyKeywords] at done
  cases read : words? key value with
  | error error => rw [read] at done; cases done
  | ok words =>
    rw [read] at done
    obtain rfl := Except.ok.inj done
    refine ⟨words, words?_eq_ok_iff.1 read, ?_⟩
    simp only
    split <;> simp_all

theorem applyEntry_eq_ok (done : applyEntry settings (key, value) = .ok next) :
    (key = "format" ∧ ∃ form, FormOf value form ∧ next = { settings with form? := some form }) ∨
      (key = "fold" ∧ ∃ entries, value = .table entries ∧
        entries.foldlM applyFold settings = .ok next) ∨
      (key = "keywords" ∧ ∃ entries, value = .table entries ∧
        entries.foldlM applyKeywords settings = .ok next) ∨
      key ∉ ["format", "fold", "keywords"] ∧ next = settings := by
  by_cases known : key ∈ ["format", "fold", "keywords"]
  · obtain rfl | rfl | rfl := by simpa using known
    · cases value with
      | string name =>
        rw [applyEntry] at done
        cases read : SourceForm.ofName? name with
        | none => rw [read] at done; cases done
        | some form =>
          rw [read] at done
          exact .inl ⟨rfl, form, ofName?_eq_some_iff.1 read, (Except.ok.inj done).symm⟩
      | _ => cases done
    · cases value with
      | table entries => exact .inr (.inl ⟨rfl, entries, rfl, done⟩)
      | _ => cases done
    · cases value with
      | table entries => exact .inr (.inr (.inl ⟨rfl, entries, rfl, done⟩))
      | _ => cases done
  · rw [applyEntry_unknown settings value known] at done
    obtain rfl := Except.ok.inj done
    exact .inr (.inr (.inr ⟨known, rfl⟩))

end Inversion

/-! ## Folds that succeed -/

section Fold

variable {step : Settings → String × Toml.Value → Except SettingsError Settings}

theorem foldlM_cons_eq_ok {entry : String × Toml.Value} {entries : Toml.Table}
    {settings last : Settings} (done : (entry :: entries).foldlM step settings = .ok last) :
    ∃ next, step settings entry = .ok next ∧ entries.foldlM step next = .ok last := by
  rw [List.foldlM_cons] at done
  cases stepped : step settings entry with
  | error error => rw [stepped] at done; cases done
  | ok next => rw [stepped] at done; exact ⟨next, rfl, done⟩

/-- Where a fold succeeds, each step has. -/
theorem exists_step_of_foldlM {entries : Toml.Table} {settings last : Settings}
    (done : entries.foldlM step settings = .ok last) {entry : String × Toml.Value}
    (mem : entry ∈ entries) : ∃ before after, step before entry = .ok after := by
  induction entries generalizing settings with
  | nil => cases mem
  | cons first entries ih =>
    obtain ⟨next, stepped, done⟩ := foldlM_cons_eq_ok done
    obtain rfl | mem := List.mem_cons.1 mem
    · exact ⟨settings, next, stepped⟩
    · exact ih done mem

/-- What each step keeps, a fold keeps. -/
theorem foldlM_keeps {β : Type} {get : Settings → β}
    (keeps : ∀ {settings entry next}, step settings entry = .ok next → get next = get settings)
    {entries : Toml.Table} {settings last : Settings}
    (done : entries.foldlM step settings = .ok last) : get last = get settings := by
  induction entries generalizing settings with
  | nil => obtain rfl := Except.ok.inj done; rfl
  | cons first entries ih =>
    obtain ⟨next, stepped, done⟩ := foldlM_cons_eq_ok done
    rw [ih done, keeps stepped]

end Fold

/-! ## Well-formed tables -/

/-- Each setting that is there stands for something. -/
structure WellFormed (table : Toml.Table) : Prop where
  format : ∀ value, ("format", value) ∈ table → ∃ form, FormOf value form
  fold : ∀ value, ("fold", value) ∈ table → ∃ entries, value = .table entries ∧
    ∀ entry ∈ entries, entry.1 ∈ ["comment", "compact"] → ∃ truth, TruthOf entry.2 truth
  keywords : ∀ value, ("keywords", value) ∈ table → ∃ entries, value = .table entries ∧
    ∀ entry ∈ entries, ∃ words, WordsOf entry.2 words

/-- What a settings file says can be read only if all of it is well formed. -/
theorem wellFormed_of_applyTable {table : Toml.Table} {settings last : Settings}
    (done : applyTable settings table = .ok last) : WellFormed table where
  format value mem := by
    obtain ⟨before, after, stepped⟩ := exists_step_of_foldlM done mem
    obtain ⟨form, stands, -⟩ := by simpa using applyEntry_eq_ok stepped
    exact ⟨form, stands⟩
  fold value mem := by
    obtain ⟨before, after, stepped⟩ := exists_step_of_foldlM done mem
    obtain ⟨entries, rfl, folded⟩ := by simpa using applyEntry_eq_ok stepped
    refine ⟨entries, rfl, fun entry mem known => ?_⟩
    obtain ⟨before, after, stepped⟩ := exists_step_of_foldlM folded mem
    obtain ⟨-, truth, stands, -⟩ | ⟨-, truth, stands, -⟩ | ⟨unknown, -⟩ := applyFold_eq_ok stepped
    · exact ⟨truth, stands⟩
    · exact ⟨truth, stands⟩
    · exact absurd known unknown
  keywords value mem := by
    obtain ⟨before, after, stepped⟩ := exists_step_of_foldlM done mem
    obtain ⟨entries, rfl, folded⟩ := by simpa using applyEntry_eq_ok stepped
    refine ⟨entries, rfl, fun entry mem => ?_⟩
    obtain ⟨before, after, stepped⟩ := exists_step_of_foldlM folded mem
    obtain ⟨words, stands, -⟩ := applyKeywords_eq_ok stepped
    exact ⟨words, stands⟩

/-- A well-formed file has no fault. -/
theorem WellFormed.not_offends {table : Toml.Table} (formed : WellFormed table) (place : Place)
    (error : SettingsError) : ¬Offends table place error := by
  rintro ⟨entry, mem, fault | fault | fault⟩
  · obtain ⟨form, stands⟩ := formed.format _ mem
    obtain noForm | noText := fault
    · exact noForm form stands
    · cases stands <;> exact noText _ rfl
  · obtain ⟨entries, rfl, known⟩ := formed.fold _ mem
    obtain noTable | ⟨mem, key, noTruth⟩ := fault
    · exact noTable entries rfl
    · obtain ⟨truth, stands⟩ := known _ mem key
      exact noTruth truth stands
  · obtain ⟨entries, rfl, each⟩ := formed.keywords _ mem
    obtain noTable | ⟨mem, fault⟩ := fault
    · exact noTable entries rfl
    · obtain ⟨words, stands⟩ := each _ mem
      obtain ⟨fault⟩ := fault
      exact fault.not_wordsOf words stands

/-! ## What settings say -/

section Reads

variable {β : Type}

/-- A field after reading entries: it is what the value of its key stands for, or as it was where
the key is missing. -/
def Reads (stands : Toml.Value → β → Prop) (old : β) (entries : Toml.Table) (key : String)
    (new : β) : Prop :=
  match entries.lookup key with
  | some value => stands value new
  | none => new = old

/-- A field after reading a file: the value of its key stands in an inner table. -/
def ReadsInner (stands : Toml.Value → β → Prop) (old : β) (table : Toml.Table)
    (outer key : String) (new : β) : Prop :=
  Reads (fun value new => ∃ entries, value = .table entries ∧ Reads stands old entries key new) old
    table outer new

variable {stands : Toml.Value → β → Prop} {old new new' : β} {entries table : Toml.Table}
variable {outer key : String}

theorem Reads.unique
    (functional : ∀ value new new', stands value new → stands value new' → new = new')
    (reads : Reads stands old entries key new) (reads' : Reads stands old entries key new') :
    new = new' := by
  rw [Reads] at reads reads'
  cases found : entries.lookup key with
  | some value =>
    rw [found] at reads reads'
    exact functional value new new' reads reads'
  | none =>
    rw [found] at reads reads'
    exact reads.trans reads'.symm

theorem ReadsInner.unique
    (functional : ∀ value new new', stands value new → stands value new' → new = new')
    (reads : ReadsInner stands old table outer key new)
    (reads' : ReadsInner stands old table outer key new') : new = new' := by
  refine Reads.unique ?_ reads reads'
  rintro value new new' ⟨entries, rfl, reads⟩ ⟨entries', same, reads'⟩
  obtain rfl := Toml.Value.table.inj same
  exact reads.unique functional reads'

/-- A fold over entries in the order of their keys reads a field if its step does so at the key of
the field and keeps the field at all other keys. -/
theorem reads_foldlM {step : Settings → String × Toml.Value → Except SettingsError Settings}
    {get : Settings → β} (stands : β → Toml.Value → β → Prop)
    (own : ∀ value, (key, value) ∈ entries → ∀ {settings next},
      step settings (key, value) = .ok next → stands (get settings) value (get next))
    (others : ∀ {settings entry next}, entry.1 ≠ key → step settings entry = .ok next →
      get next = get settings)
    (ascending : Toml.Ascending entries) {settings last : Settings}
    (done : entries.foldlM step settings = .ok last) :
    Reads (stands (get settings)) (get settings) entries key (get last) := by
  induction entries generalizing settings with
  | nil => obtain rfl := Except.ok.inj done; exact rfl
  | cons first entries ih =>
    obtain ⟨least, ascending⟩ := List.pairwise_cons.1 ascending
    obtain ⟨next, stepped, done⟩ := foldlM_cons_eq_ok done
    have rest := ih (fun value mem => own value (List.mem_cons_of_mem _ mem)) ascending done
    obtain ⟨found, value⟩ := first
    by_cases same : found = key
    · subst same
      -- No later entry has the key.
      have missing : entries.lookup found = none := by
        rw [List.lookup_eq_none_iff]
        intro other mem
        have less : found < other.1 := least other mem
        simpa using fun same => String.lt_irrefl _ (same ▸ less)
      rw [Reads, missing] at rest
      rw [Reads, List.lookup_cons_self, rest]
      exact own value List.mem_cons_self stepped
    · have skips : ((found, value) :: entries).lookup key = entries.lookup key := by
        rw [List.lookup_cons, beq_eq_false_iff_ne.2 (Ne.symm same)]
      rw [others same stepped] at rest
      rwa [Reads, skips]

end Reads

/-! ## Which entries set which fields -/

/-- The field that an entry of the table `fold` sets. -/
def foldField (key : String) (settings : Settings) : Bool :=
  match key with
  | "comment" => settings.foldComments
  | "compact" => settings.markWhite
  | _ => true

/-- The field that an entry of the table `keywords` sets. -/
def keywordsField (key : String) (settings : Settings) : List String :=
  match key with
  | "primary" => settings.primary
  | "intrinsic" => settings.intrinsic
  | "extended" => settings.extended
  | _ => []

theorem foldField_applyFold {settings next : Settings} {key key' : String} {value : Toml.Value}
    (done : applyFold settings (key, value) = .ok next) (known : key' ∈ ["comment", "compact"]) :
    (key = key' → TruthOf value (foldField key' next)) ∧
      (key ≠ key' → foldField key' next = foldField key' settings) := by
  obtain rfl | rfl := by simpa using known
  all_goals
    obtain ⟨rfl, truth, stands, rfl⟩ | ⟨rfl, truth, stands, rfl⟩ | ⟨unknown, rfl⟩ :=
      applyFold_eq_ok done
    all_goals simp_all [foldField]

theorem keywordsField_applyKeywords {settings next : Settings} {key key' : String}
    {value : Toml.Value} (done : applyKeywords settings (key, value) = .ok next)
    (known : key' ∈ ["primary", "intrinsic", "extended"]) :
    (key = key' → WordsOf value (keywordsField key' next)) ∧
      (key ≠ key' → keywordsField key' next = keywordsField key' settings) := by
  obtain ⟨words, stands, h⟩ := applyKeywords_eq_ok done
  obtain rfl | rfl | rfl := by simpa using known
  all_goals
    obtain ⟨rfl, rfl⟩ | ⟨rfl, rfl⟩ | ⟨rfl, rfl⟩ | ⟨unknown, rfl⟩ := h
    all_goals simp_all [keywordsField]

theorem kept_applyFold {settings next : Settings} {entry : String × Toml.Value}
    (done : applyFold settings entry = .ok next) :
    next.form? = settings.form? ∧ ∀ key, keywordsField key next = keywordsField key settings := by
  obtain ⟨-, truth, -, rfl⟩ | ⟨-, truth, -, rfl⟩ | ⟨-, rfl⟩ := applyFold_eq_ok done
  all_goals exact ⟨rfl, fun _ => rfl⟩

theorem kept_applyKeywords {settings next : Settings} {entry : String × Toml.Value}
    (done : applyKeywords settings entry = .ok next) :
    next.form? = settings.form? ∧ ∀ key, foldField key next = foldField key settings := by
  obtain ⟨words, -, ⟨-, rfl⟩ | ⟨-, rfl⟩ | ⟨-, rfl⟩ | ⟨-, rfl⟩⟩ := applyKeywords_eq_ok done
  all_goals exact ⟨rfl, fun _ => rfl⟩

theorem form?_applyEntry {settings next : Settings} {entry : String × Toml.Value}
    (other : entry.1 ≠ "format") (done : applyEntry settings entry = .ok next) :
    next.form? = settings.form? := by
  obtain ⟨same, -⟩ | ⟨-, entries, -, folded⟩ | ⟨-, entries, -, folded⟩ | ⟨-, rfl⟩ :=
    applyEntry_eq_ok done
  · exact absurd same other
  · exact foldlM_keeps (fun stepped => (kept_applyFold stepped).1) folded
  · exact foldlM_keeps (fun stepped => (kept_applyKeywords stepped).1) folded
  · rfl

theorem foldField_applyEntry {settings next : Settings} {entry : String × Toml.Value}
    (other : entry.1 ≠ "fold") (done : applyEntry settings entry = .ok next) (key : String) :
    foldField key next = foldField key settings := by
  obtain ⟨-, form, -, rfl⟩ | ⟨same, -⟩ | ⟨-, entries, -, folded⟩ | ⟨-, rfl⟩ :=
    applyEntry_eq_ok done
  · rfl
  · exact absurd same other
  · exact foldlM_keeps (fun stepped => (kept_applyKeywords stepped).2 key) folded
  · rfl

theorem keywordsField_applyEntry {settings next : Settings} {entry : String × Toml.Value}
    (other : entry.1 ≠ "keywords") (done : applyEntry settings entry = .ok next) (key : String) :
    keywordsField key next = keywordsField key settings := by
  obtain ⟨-, form, -, rfl⟩ | ⟨-, entries, -, folded⟩ | ⟨same, -⟩ | ⟨-, rfl⟩ :=
    applyEntry_eq_ok done
  · rfl
  · exact foldlM_keeps (fun stepped => (kept_applyFold stepped).2 key) folded
  · exact absurd same other
  · rfl

section Tables

variable {table : Toml.Table} {settings last : Settings} {key : String}

/-- A field that the entries of one key of an inner table set, and nothing else changes. -/
theorem readsInner_of_steps {β : Type} {get : Settings → β} {stands : Toml.Value → β → Prop}
    {outer : String} {step : Settings → String × Toml.Value → Except SettingsError Settings}
    (enters : ∀ {settings value next}, applyEntry settings (outer, value) = .ok next →
      ∃ entries, value = .table entries ∧ entries.foldlM step settings = .ok next)
    (outside : ∀ {settings entry next}, entry.1 ≠ outer → applyEntry settings entry = .ok next →
      get next = get settings)
    (own : ∀ {settings found value next}, step settings (found, value) = .ok next →
      (found = key → stands value (get next)) ∧ (found ≠ key → get next = get settings))
    (ordered : Toml.Ordered table) (done : applyTable settings table = .ok last) :
    ReadsInner stands (get settings) table outer key (get last) := by
  refine reads_foldlM (fun old value new => ∃ entries, value = .table entries ∧
    Reads stands old entries key new) ?_ outside ordered.keys done
  intro value mem settings next stepped
  obtain ⟨entries, rfl, folded⟩ := enters stepped
  exact ⟨entries, rfl, reads_foldlM (fun _ => stands) (fun _ _ _ _ stepped => (own stepped).1 rfl)
    (fun other stepped => (own stepped).2 other) (ordered.inner _ mem) folded⟩

theorem readsInner_fold (ordered : Toml.Ordered table)
    (done : applyTable settings table = .ok last) (known : key ∈ ["comment", "compact"]) :
    ReadsInner TruthOf (foldField key settings) table "fold" key (foldField key last) := by
  refine readsInner_of_steps (fun stepped => ?_)
    (fun other stepped => foldField_applyEntry other stepped key)
    (fun stepped => foldField_applyFold stepped known) ordered done
  simpa using applyEntry_eq_ok stepped

theorem readsInner_keywords (ordered : Toml.Ordered table)
    (done : applyTable settings table = .ok last)
    (known : key ∈ ["primary", "intrinsic", "extended"]) :
    ReadsInner WordsOf (keywordsField key settings) table "keywords" key
      (keywordsField key last) := by
  refine readsInner_of_steps (fun stepped => ?_)
    (fun other stepped => keywordsField_applyEntry other stepped key)
    (fun stepped => keywordsField_applyKeywords stepped known) ordered done
  simpa using applyEntry_eq_ok stepped

theorem reads_form (ordered : Toml.Ordered table) (done : applyTable settings table = .ok last) :
    Reads (fun value form? => ∃ form, FormOf value form ∧ form? = some form) settings.form? table
      "format" last.form? := by
  refine reads_foldlM (fun _ value form? => ∃ form, FormOf value form ∧ form? = some form) ?_
    form?_applyEntry ordered.keys done
  intro value mem settings next stepped
  obtain ⟨form, stands, rfl⟩ := by simpa using applyEntry_eq_ok stepped
  exact ⟨form, stands, rfl⟩

end Tables

/-- The settings that a table describes: the values of its keys, or the defaults. -/
structure Decodes (table : Toml.Table) (settings : Settings) : Prop where
  form : Reads (fun value form? => ∃ form, FormOf value form ∧ form? = some form) none table
    "format" settings.form?
  foldComments : ReadsInner TruthOf true table "fold" "comment" settings.foldComments
  markWhite : ReadsInner TruthOf true table "fold" "compact" settings.markWhite
  primary : ReadsInner WordsOf [] table "keywords" "primary" settings.primary
  intrinsic : ReadsInner WordsOf [] table "keywords" "intrinsic" settings.intrinsic
  extended : ReadsInner WordsOf [] table "keywords" "extended" settings.extended

theorem decodes_of_applyTable {table : Toml.Table} (ordered : Toml.Ordered table)
    {settings : Settings} (done : applyTable {} table = .ok settings) : Decodes table settings where
  form := reads_form ordered done
  foldComments := readsInner_fold ordered done (by decide)
  markWhite := readsInner_fold ordered done (by decide)
  primary := readsInner_keywords ordered done (by decide)
  intrinsic := readsInner_keywords ordered done (by decide)
  extended := readsInner_keywords ordered done (by decide)

theorem Decodes.unique {table : Toml.Table} {settings settings' : Settings}
    (decodes : Decodes table settings) (decodes' : Decodes table settings') :
    settings = settings' := by
  have form : settings.form? = settings'.form? := by
    refine Reads.unique ?_ decodes.form decodes'.form
    rintro value _ _ ⟨form, stands, rfl⟩ ⟨form', stands', rfl⟩
    rw [stands.unique stands']
  have truth : ∀ value new new', TruthOf value new → TruthOf value new' → new = new' :=
    fun _ _ _ => TruthOf.unique
  have words : ∀ value new new', WordsOf value new → WordsOf value new' → new = new' :=
    fun _ _ _ => WordsOf.unique
  have foldComments := decodes.foldComments.unique truth decodes'.foldComments
  have markWhite := decodes.markWhite.unique truth decodes'.markWhite
  have primary := decodes.primary.unique words decodes'.primary
  have intrinsic := decodes.intrinsic.unique words decodes'.intrinsic
  have extended := decodes.extended.unique words decodes'.extended
  cases settings
  cases settings'
  exact Settings.mk.injEq .. |>.mpr ⟨foldComments, markWhite, form, primary, intrinsic, extended⟩

/-! ## Keys that say nothing -/

/-- An entry of a settings file; of the table `fold`, only the entries that can have an effect. -/
def trimmed : String × Toml.Value → String × Toml.Value
  | ("fold", .table entries) => ("fold", .table (entries.filter (·.1 ∈ ["comment", "compact"])))
  | entry => entry

/-- The entries of a settings file that can have an effect. -/
def recognised (table : Toml.Table) : Toml.Table :=
  (table.filter (·.1 ∈ ["format", "fold", "keywords"])).map trimmed

theorem foldlM_filter_eq {step : Settings → String × Toml.Value → Except SettingsError Settings}
    {known : String × Toml.Value → Bool}
    (unknown : ∀ settings entry, known entry = false → step settings entry = .ok settings)
    (settings : Settings) (entries : Toml.Table) :
    (entries.filter known).foldlM step settings = entries.foldlM step settings := by
  rw [List.foldlM_filter]
  congr 1
  funext settings entry
  cases same : known entry with
  | true => rfl
  | false => exact (unknown settings entry same).symm

theorem applyEntry_trimmed (settings : Settings) (entry : String × Toml.Value) :
    applyEntry settings (trimmed entry) = applyEntry settings entry := by
  unfold trimmed
  split
  · refine foldlM_filter_eq (fun settings entry unknown => ?_) settings _
    exact applyFold_unknown settings entry.2 (by simpa using unknown)
  · rfl

theorem applyTable_recognised (settings : Settings) (table : Toml.Table) :
    applyTable settings (recognised table) = applyTable settings table := by
  rw [applyTable, recognised, List.foldlM_map]
  simp only [applyEntry_trimmed]
  refine foldlM_filter_eq (fun settings entry unknown => ?_) settings table
  exact applyEntry_unknown settings entry.2 (by simpa using unknown)

/-! ## What becomes of a settings file -/

/-- A settings file is accepted exactly if it is well formed, and then the settings are what it says
and the defaults for the rest. Otherwise its error is that of the first fault, in the order of the
keys. Unknown keys of the file and of its table `fold` have no effect. -/
theorem applyTable_outcome {table : Toml.Table} (ordered : Toml.Ordered table) :
    ((∃ settings, applyTable {} table = .ok settings) ↔ WellFormed table) ∧
      (∀ settings, applyTable {} table = .ok settings ↔
        WellFormed table ∧ Decodes table settings) ∧
      (∀ error, applyTable {} table = .error error ↔
        ∃ place, FirstOf (Offends table) place error) ∧
      applyTable {} (recognised table) = applyTable {} table := by
  have accepted : (∃ settings, applyTable {} table = .ok settings) ↔ WellFormed table := by
    constructor
    · rintro ⟨settings, done⟩
      exact wellFormed_of_applyTable done
    · intro formed
      cases done : applyTable {} table with
      | ok settings => exact ⟨settings, rfl⟩
      | error error =>
        obtain ⟨place, first⟩ := ((failsFirst_applyTable ordered {}).error error).1 done
        exact absurd first.fault (formed.not_offends place error)
  refine ⟨accepted, fun settings => ⟨?_, ?_⟩, (failsFirst_applyTable ordered {}).error,
    applyTable_recognised {} table⟩
  · intro done
    exact ⟨accepted.1 ⟨settings, done⟩, decodes_of_applyTable ordered done⟩
  · rintro ⟨formed, decodes⟩
    obtain ⟨settings', done⟩ := accepted.2 formed
    rwa [decodes.unique (decodes_of_applyTable ordered done)]

/-- Two settings at fault: a word that is no truth value, and a name of no source form. -/
def twoFaults : Toml.Table :=
  [("fold", .table [("compact", .string "maybe"), ("depth", .integer 3)]),
    ("format", .string "cobol"), ("tabs", .boolean true)]

/-- Settings among unknown keys. -/
def unknownKeys : Toml.Table :=
  [("fold", .table [("comment", .string "NO"), ("depth", .integer 3)]),
    ("keywords", .table [("extended", .string " alpha\tbeta "), ("other", .array [])]),
    ("tabs", .boolean true)]

/-- The fault that comes first decides the error, and unknown keys are no faults. -/
theorem applyTable_outcome_twoFaults :
    (Toml.Ordered twoFaults ∧ ¬WellFormed twoFaults ∧ ∃ place,
      FirstOf (Offends twoFaults) place (.invalidValue "fold.compact" (.string "maybe"))) ∧
    (Toml.Ordered unknownKeys ∧ WellFormed unknownKeys ∧
      Decodes unknownKeys { foldComments := false, extended := ["alpha", "beta"] }) := by
  have ordered : Toml.Ordered twoFaults := by decide +kernel
  have refused : applyTable {} twoFaults =
      .error (.invalidValue "fold.compact" (.string "maybe")) := rfl
  have ordered' : Toml.Ordered unknownKeys := by decide +kernel
  have done : applyTable {} unknownKeys =
      .ok { foldComments := false, extended := ["alpha", "beta"] } := rfl
  obtain ⟨accepted, -, first, -⟩ := applyTable_outcome ordered
  obtain ⟨-, read, -⟩ := applyTable_outcome ordered'
  refine ⟨⟨ordered, fun formed => ?_, (first _).1 refused⟩, ordered', (read _).1 done⟩
  obtain ⟨settings, done⟩ := accepted.2 formed
  exact nomatch refused.symm.trans done

end FortranMarkup.Settings

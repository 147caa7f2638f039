import FortranMarkup.Settings
import FortranMarkup.Proofs.Text.Words

/-!
# What the values of settings stand for

A value can stand for a truth value, for words or for a source form (`Settings.TruthOf`,
`Settings.WordsOf`, `Settings.FormOf`). The readers of settings find what a value stands for and
nothing else; where an array holds an item that is no text, the first such item is the one at fault
(`Settings.words?_eq_error_iff`).
-/

namespace FortranMarkup

/-! ## Words in any case -/

namespace Case

/-- Some words have neither a `k` nor the Kelvin sign, whose small form is a `k`. -/
def FreeOfK (words : List String) : Prop :=
  ∀ word ∈ words, 'k' ∉ word.toList ∧ '\u212A' ∉ word.toList

instance (words : List String) : Decidable (FreeOfK words) :=
  inferInstanceAs (Decidable (∀ word ∈ words, _))

theorem ofList_eq_iff {chars : List Char} {word : String} :
    String.ofList chars = word ↔ chars = word.toList :=
  ⟨fun same => by rw [← same, String.toList_ofList], fun same => by rw [same, String.ofList_toList]⟩

/-- In a word without a `k`, only the case of ASCII letters is free. -/
theorem small_eq_iff {text word : String} (free : 'k' ∉ word.toList ∧ '\u212A' ∉ word.toList) :
    small text = word ↔ lower text = word := by
  rw [small, lower, ofList_eq_iff, ofList_eq_iff]
  by_cases kelvin : '\u212A' ∈ text.toList
  · refine iff_of_false (fun same => free.1 ?_) (fun same => free.2 ?_)
    · rw [← same]
      exact List.mem_map.2 ⟨_, kelvin, rfl⟩
    · rw [← same]
      exact List.mem_map.2 ⟨_, kelvin, rfl⟩
  · have same : text.toList.map smallLetter = text.toList.map Char.toLower := by
      refine List.map_congr_left fun c mem => ?_
      rw [smallLetter, if_neg]
      rintro rfl
      exact kelvin mem
    rw [same]

theorem small_mem_iff {text : String} {words : List String} (free : FreeOfK words) :
    small text ∈ words ↔ lower text ∈ words := by
  constructor
  · intro mem
    rwa [(small_eq_iff (free _ mem)).1 rfl]
  · intro mem
    rwa [(small_eq_iff (free _ mem)).2 rfl]

end Case

namespace Settings

/-- The words for yes. -/
def yesWords : List String := ["true", "yes", "on", "1"]

/-- The words for no. -/
def noWords : List String := ["false", "no", "off", "0"]

/-- A value stands for a truth value: a boolean for itself, a number for not being zero, and a text
for what it says in any case. -/
inductive TruthOf : Toml.Value → Bool → Prop
  | boolean (truth : Bool) : TruthOf (.boolean truth) truth
  | zero : TruthOf (.integer 0) false
  | nonzero {number : Int} (other : number ≠ 0) : TruthOf (.integer number) true
  | yes {text : String} (word : Case.lower text ∈ yesWords) : TruthOf (.string text) true
  | no {text : String} (word : Case.lower text ∈ noWords) : TruthOf (.string text) false

/-- A text stands for the source form that it names in any case. -/
inductive FormOf : Toml.Value → SourceForm → Prop
  | fixed {name : String} (word : Case.lower name ∈ ["fixed", "f77"]) :
      FormOf (.string name) .fixed
  | free {name : String} (word : Case.lower name ∈ ["free", "fortran"]) :
      FormOf (.string name) .free

/-- A value stands for words: a text for those between its white space, and an array of texts for
these. -/
inductive WordsOf : Toml.Value → List String → Prop
  | text {text : String} {words : List String}
      (splits : White.Splits text.toList (words.map String.toList)) : WordsOf (.string text) words
  | texts (words : List String) : WordsOf (.array (words.map .string)) words

/-! ## Readers of values -/

theorem truthOfWord?_eq_some_iff {word : String} {truth : Bool} :
    truthOfWord? word = some truth ↔
      truth = true ∧ Case.lower word ∈ yesWords ∨ truth = false ∧ Case.lower word ∈ noWords := by
  rw [← Case.small_mem_iff (by decide), ← Case.small_mem_iff (by decide), truthOfWord?]
  generalize Case.small word = small
  split
  case h_9 =>
    simp_all [yesWords, noWords]
  all_goals simp [yesWords, noWords, eq_comm]

theorem truth?_eq_some_iff {value : Toml.Value} {truth : Bool} :
    truth? value = some truth ↔ TruthOf value truth := by
  constructor
  · intro read
    cases value with
    | boolean own => obtain rfl := Option.some.inj read; exact .boolean own
    | integer number =>
      obtain rfl := Option.some.inj read
      by_cases zero : number = 0
      · subst zero; exact .zero
      · simpa [zero] using TruthOf.nonzero zero
    | string text =>
      obtain ⟨rfl, word⟩ | ⟨rfl, word⟩ := truthOfWord?_eq_some_iff.1 read
      · exact .yes word
      · exact .no word
    | _ => cases read
  · intro stands
    cases stands with
    | boolean | zero => rfl
    | nonzero other => simp [truth?, other]
    | yes word => exact truthOfWord?_eq_some_iff.2 (.inl ⟨rfl, word⟩)
    | no word => exact truthOfWord?_eq_some_iff.2 (.inr ⟨rfl, word⟩)

theorem TruthOf.unique {value : Toml.Value} {truth truth' : Bool} (stands : TruthOf value truth)
    (stands' : TruthOf value truth') : truth = truth' :=
  Option.some.inj ((truth?_eq_some_iff.2 stands).symm.trans (truth?_eq_some_iff.2 stands'))

theorem truth?_eq_none_iff {value : Toml.Value} :
    truth? value = none ↔ ∀ truth, ¬TruthOf value truth := by
  simp only [Option.eq_none_iff_forall_ne_some, ne_eq, truth?_eq_some_iff]

theorem ofName?_eq_some_iff {name : String} {form : SourceForm} :
    SourceForm.ofName? name = some form ↔ FormOf (.string name) form := by
  have named : FormOf (.string name) form ↔
      form = .fixed ∧ Case.lower name ∈ ["fixed", "f77"] ∨
        form = .free ∧ Case.lower name ∈ ["free", "fortran"] := by
    constructor
    · rintro (word | word)
      · exact .inl ⟨rfl, word⟩
      · exact .inr ⟨rfl, word⟩
    · rintro (⟨rfl, word⟩ | ⟨rfl, word⟩)
      · exact .fixed word
      · exact .free word
  rw [named, ← Case.small_mem_iff (by decide), ← Case.small_mem_iff (by decide),
    SourceForm.ofName?]
  generalize Case.small name = small
  split
  case h_5 => simp_all
  all_goals simp [eq_comm]

theorem FormOf.exists_name {value : Toml.Value} {form : SourceForm} (stands : FormOf value form) :
    ∃ name, value = .string name := by
  cases stands <;> exact ⟨_, rfl⟩

theorem FormOf.unique {value : Toml.Value} {form form' : SourceForm} (stands : FormOf value form)
    (stands' : FormOf value form') : form = form' := by
  obtain ⟨name, rfl⟩ := stands.exists_name
  exact Option.some.inj ((ofName?_eq_some_iff.2 stands).symm.trans (ofName?_eq_some_iff.2 stands'))

theorem ofName?_eq_none_iff {name : String} :
    SourceForm.ofName? name = none ↔ ∀ form, ¬FormOf (.string name) form := by
  simp only [Option.eq_none_iff_forall_ne_some, ne_eq, ofName?_eq_some_iff]

/-! ## Arrays of texts -/

@[simp] theorem words?_text_cons (key word : String) (items : List Toml.Value) :
    words? key (.array (.string word :: items)) =
      (words? key (.array items)).map (word :: ·) := by
  simp only [words?, List.mapM_cons]
  rfl

theorem words?_other_cons (key : String) {item : Toml.Value} (other : ∀ text, item ≠ .string text)
    (items : List Toml.Value) :
    words? key (.array (item :: items)) = .error (.invalidValue key item) := by
  cases item with
  | string text => exact absurd rfl (other text)
  | _ => rfl

@[simp] theorem words?_texts (key : String) (words : List String) :
    words? key (.array (words.map .string)) = .ok words := by
  induction words with
  | nil => rfl
  | cons word words ih => rw [List.map_cons, words?_text_cons, ih]; rfl

/-- The first item that is no text is the one at fault, whatever comes after it. -/
theorem words?_texts_append (key : String) (words : List String) {item : Toml.Value}
    (other : ∀ text, item ≠ .string text) (rest : List Toml.Value) :
    words? key (.array (words.map .string ++ item :: rest)) = .error (.invalidValue key item) := by
  induction words with
  | nil => exact words?_other_cons key other rest
  | cons word words ih => rw [List.map_cons, List.cons_append, words?_text_cons, ih]; rfl

/-- An array holds nothing but texts, or some item is the first that is none. -/
theorem texts_or_first (items : List Toml.Value) :
    (∃ words : List String, items = words.map .string) ∨
      ∃ (words : List String) (item : Toml.Value) (rest : List Toml.Value),
        items = words.map .string ++ item :: rest ∧ ∀ text, item ≠ .string text := by
  induction items with
  | nil => exact .inl ⟨[], rfl⟩
  | cons item items ih =>
    by_cases text : ∃ word, item = .string word
    · obtain ⟨word, rfl⟩ := text
      obtain ⟨words, rfl⟩ | ⟨words, first, rest, rfl, other⟩ := ih
      · exact .inl ⟨word :: words, rfl⟩
      · exact .inr ⟨word :: words, first, rest, rfl, other⟩
    · exact .inr ⟨[], item, items, rfl, fun word same => text ⟨word, same⟩⟩

theorem words?_eq_ok_iff {key : String} {value : Toml.Value} {words : List String} :
    words? key value = .ok words ↔ WordsOf value words := by
  constructor
  · intro read
    cases value with
    | string text => exact .text (White.words_eq_iff.1 (Except.ok.inj read))
    | array items =>
      obtain ⟨own, rfl⟩ | ⟨own, item, rest, rfl, other⟩ := texts_or_first items
      · obtain rfl := Except.ok.inj ((words?_texts key own).symm.trans read)
        exact .texts own
      · cases (words?_texts_append key own other rest).symm.trans read
    | _ => cases read
  · intro stands
    cases stands with
    | text splits => rw [words?, White.words_eq_iff.2 splits]
    | texts words => exact words?_texts key words

theorem WordsOf.unique {value : Toml.Value} {words words' : List String}
    (stands : WordsOf value words) (stands' : WordsOf value words') : words = words' := by
  have read : words? "" value = .ok words := words?_eq_ok_iff.2 stands
  exact Except.ok.inj (read.symm.trans (words?_eq_ok_iff.2 stands'))

/-- What is wrong with a value that should stand for words: the value is neither a text nor an
array, or one of its items is the first that is no text. -/
inductive WordsFault : Toml.Value → Toml.Value → Prop
  | kind {value : Toml.Value} (noText : ∀ text, value ≠ .string text)
      (noArray : ∀ items, value ≠ .array items) : WordsFault value value
  | item (words : List String) {item : Toml.Value} (noText : ∀ text, item ≠ .string text)
      (rest : List Toml.Value) : WordsFault (.array (words.map .string ++ item :: rest)) item

theorem words?_eq_error_iff {key : String} {value : Toml.Value} {error : SettingsError} :
    words? key value = .error error ↔
      ∃ culprit, WordsFault value culprit ∧ error = .invalidValue key culprit := by
  constructor
  · intro read
    cases value with
    | string text => cases read
    | array items =>
      obtain ⟨own, rfl⟩ | ⟨own, item, rest, rfl, other⟩ := texts_or_first items
      · cases (words?_texts key own).symm.trans read
      · exact ⟨item, .item own other rest,
          (Except.error.inj ((words?_texts_append key own other rest).symm.trans read)).symm⟩
    | _ =>
      exact ⟨_, .kind (fun _ => nofun) (fun _ => nofun), (Except.error.inj read).symm⟩
  · rintro ⟨culprit, fault, rfl⟩
    cases fault with
    | kind noText noArray =>
      cases value with
      | string text => exact absurd rfl (noText text)
      | array items => exact absurd rfl (noArray items)
      | _ => rfl
    | item words noText rest => exact words?_texts_append key words noText rest

theorem WordsFault.not_wordsOf {value culprit : Toml.Value} (fault : WordsFault value culprit)
    (words : List String) : ¬WordsOf value words := by
  intro stands
  have refused : words? "" value = .error (.invalidValue "" culprit) :=
    words?_eq_error_iff.2 ⟨culprit, fault, rfl⟩
  exact nomatch refused.symm.trans (words?_eq_ok_iff.2 stands)

end Settings

end FortranMarkup

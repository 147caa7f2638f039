import FortranMarkup.Proofs.Nesting.Words

/-!
# Statements of constructs

The statements that open a construct, divide it into branches and close it, each by its role. The role
alone decides the effect of a line on the levels (`Line.tells`), whatever the case of its keywords, its
names and its indent are.
-/

namespace FortranMarkup

/-- The kinds of blocks that begin with a keyword and a name. -/
inductive BlockKind where
  | associate | block | blockdata | critical | do | enum | function | interface | module | program
  | submodule | subroutine
deriving Repr, DecidableEq

namespace BlockKind

def word : BlockKind → String
  | associate => "associate"
  | block => "block"
  | blockdata => "blockdata"
  | critical => "critical"
  | «do» => "do"
  | enum => "enum"
  | function => "function"
  | interface => "interface"
  | module => "module"
  | program => "program"
  | submodule => "submodule"
  | subroutine => "subroutine"

end BlockKind

/-- The constructs: blocks, `if`, `select case` and `where`. -/
inductive Family where
  | block (kind : BlockKind)
  | cond
  | select
  | mask
deriving Repr, DecidableEq

namespace Family

/-- By how many blocks the branches of a construct are further in than the construct. -/
def offset : Family → Nat
  | block _ | cond | mask => 0
  | select => 2

/-- By how many blocks the items of a construct are further in. -/
def inner (f : Family) : Nat :=
  f.offset + 1

end Family

/-- What a line is in its construct, or that it is an item by itself. -/
inductive Role where
  | item
  | head (f : Family)
  | branch (f : Family)
  | lastBranch (f : Family)
  | finish (f : Family)
deriving Repr, DecidableEq

/-- The effect of a line on the levels. -/
def Role.effect : Role → FoldEffect
  | item => ⟨0, false⟩
  | head f => ⟨f.inner, false⟩
  | branch _ | lastBranch _ => ⟨1, true⟩
  | finish f => ⟨-f.inner, false⟩

/-- The end of a construct, in two words or in one. -/
inductive Ending (word : String) where
  | apart (ends : Spelled "end") (kind : Spelled word)
  | fused (ends : Spelled ("end" ++ word))

/-- A statement with a role. -/
inductive Statement : Role → Type where
  | assign (name : Name) (value : Number) : Statement .item
  | begin {kind : BlockKind} (keyword : Spelled kind.word) (name : Name) :
      Statement (.head (.block kind))
  | finish {kind : BlockKind} (ending : Ending kind.word) (name? : Option Name) :
      Statement (.finish (.block kind))
  | ifThen (keyword : Spelled "if") (condition : Name) (thens : Spelled "then") :
      Statement (.head .cond)
  | elseIf (other : Spelled "else") (keyword : Spelled "if") (condition : Name)
      (thens : Spelled "then") : Statement (.branch .cond)
  | elseAlone (keyword : Spelled "else") : Statement (.lastBranch .cond)
  | endIf (ending : Ending "if") : Statement (.finish .cond)
  | selectCase (keyword : Spelled "select") (cases : Spelled "case") (selector : Name) :
      Statement (.head .select)
  | caseValue (keyword : Spelled "case") (value : Number) : Statement (.branch .select)
  | caseDefault (keyword : Spelled "case") (default : Spelled "default") :
      Statement (.lastBranch .select)
  | endSelect (ends : Spelled "end") (keyword : Spelled "select") : Statement (.finish .select)
  | whereMask (keyword : Spelled "where") (mask : Name) : Statement (.head .mask)
  | elsewhere (keyword : Spelled "elsewhere") : Statement (.lastBranch .mask)
  | endWhere (ends : Spelled "end") (keyword : Spelled "where") : Statement (.finish .mask)

/-! ## Tokens -/

def Ending.tokens {word : String} : Ending word → List Token
  | apart ends kind => [ends.token, .blank, kind.token]
  | fused ends => [ends.token]

/-- Tokens in parentheses, after a blank. -/
def Token.parenthesized (token : Token) : List Token :=
  [.blank, .mark '(', token, .mark ')']

namespace Statement

def tokens {role : Role} : Statement role → List Token
  | assign name value => [name.token, .blank, .mark '=', .blank, value.token]
  | begin keyword name => [keyword.token, .blank, name.token]
  | finish ending none => ending.tokens
  | finish ending (some name) => ending.tokens ++ [.blank, name.token]
  | ifThen keyword condition thens =>
    keyword.token :: condition.token.parenthesized ++ [.blank, thens.token]
  | elseIf other keyword condition thens =>
    [other.token, .blank, keyword.token] ++ condition.token.parenthesized ++
      [.blank, thens.token]
  | elseAlone keyword => [keyword.token]
  | endIf ending => ending.tokens
  | selectCase keyword cases selector =>
    [keyword.token, .blank, cases.token] ++ selector.token.parenthesized
  | caseValue keyword value => keyword.token :: value.token.parenthesized
  | caseDefault keyword default => [keyword.token, .blank, default.token]
  | endSelect ends keyword | endWhere ends keyword => [ends.token, .blank, keyword.token]
  | whereMask keyword mask => keyword.token :: mask.token.parenthesized
  | elsewhere keyword => [keyword.token]

end Statement

/-- A statement on its line, behind any number of blanks. -/
structure Line (role : Role) where
  indent : Nat
  statement : Statement role

def Line.tokens {role : Role} (line : Line role) : List Token :=
  .replicate line.indent .blank ++ line.statement.tokens

/-! ## What the lines tell -/

theorem BlockKind.known (kind : BlockKind) :
    kind.word ∈ foldWords ∧ "end" ++ kind.word ∈ foldWords := by
  cases kind <;> decide

theorem Ending.read? {word : String} (ending : Ending word) (known : word ∈ foldWords)
    (fused : "end" ++ word ∈ foldWords) {rest : List Token}
    (kept : Token.effect? word "end" rest = some ⟨0, false⟩)
    (closes : Token.effect? ("end" ++ word) "" rest = some ⟨-1, false⟩) (level : Int) :
    ∃ previous, Token.read? .fortran (.begun level) (ending.tokens ++ rest) =
      Token.read? .fortran ⟨level, -1, previous, true⟩ rest := by
  cases ending with
  | apart ends kind =>
    refine ⟨word, ?_⟩
    change Token.read? _ _ (ends.token :: .blank :: kind.token :: rest) = _
    rw [ends.read? (by decide) ⟨-1, false⟩ rfl, Token.read?_blank, kind.read? known ⟨0, false⟩ kept]
    rfl
  | fused ends =>
    refine ⟨"end" ++ word, ?_⟩
    change Token.read? _ _ (ends.token :: rest) = _
    rw [ends.read? fused ⟨-1, false⟩ closes]
    rfl

namespace Statement

variable {role : Role}

theorem tells (statement : Statement role) :
    Token.Tells .fortran statement.tokens role.effect := by
  intro level
  cases statement with
  | assign name value =>
    refine ⟨"", ?_⟩
    exact name.read?
  | @begin kind keyword name =>
    refine ⟨kind.word, ?_⟩
    have opens : Token.effect? kind.word "" [.blank, name.token] = some ⟨1, false⟩ := by
      cases kind <;> rfl
    change Token.read? _ _ (keyword.token :: .blank :: name.token :: []) = _
    rw [keyword.read? kind.known.1 ⟨1, false⟩ opens, Token.read?_blank, name.read?]
    rfl
  | @finish kind ending name? =>
    cases name? with
    | none =>
      have kept : Token.effect? kind.word "end" [] = some ⟨0, false⟩ := by
        cases kind <;> rfl
      have closes : Token.effect? ("end" ++ kind.word) "" [] = some ⟨-1, false⟩ := by
        cases kind <;> rfl
      obtain ⟨previous, read⟩ := ending.read? kind.known.1 kind.known.2 kept closes level
      rw [List.append_nil] at read
      exact ⟨previous, read⟩
    | some name =>
      have kept : Token.effect? kind.word "end" [.blank, name.token] = some ⟨0, false⟩ := by
        cases kind <;> rfl
      have closes : Token.effect? ("end" ++ kind.word) "" [.blank, name.token] =
          some ⟨-1, false⟩ := by
        cases kind <;> rfl
      obtain ⟨previous, read⟩ := ending.read? kind.known.1 kind.known.2 kept closes level
      refine ⟨previous, ?_⟩
      rw [tokens, read, Token.read?_blank, name.read?]
      rfl
  | ifThen keyword condition thens =>
    refine ⟨"then", ?_⟩
    change Token.read? _ _ (keyword.token :: .blank :: .mark '(' :: condition.token :: .mark ')' ::
      .blank :: thens.token :: []) = _
    rw [keyword.read? (by decide) ⟨0, false⟩ rfl, Token.read?_blank, Token.read?_mark,
      condition.read?, Token.read?_mark, Token.read?_blank, thens.read? (by decide) ⟨1, false⟩ rfl]
    rfl
  | elseIf other keyword condition thens =>
    refine ⟨"then", ?_⟩
    change Token.read? _ _ (other.token :: .blank :: keyword.token :: .blank :: .mark '(' ::
      condition.token :: .mark ')' :: .blank :: thens.token :: []) = _
    rw [other.read? (by decide) ⟨0, false⟩ rfl, Token.read?_blank,
      keyword.read? (by decide) ⟨0, true⟩ rfl, Token.read?_blank, Token.read?_mark,
      condition.read?, Token.read?_mark, Token.read?_blank, thens.read? (by decide) ⟨1, false⟩ rfl]
    rfl
  | elseAlone keyword =>
    refine ⟨"else", ?_⟩
    change Token.read? _ _ (keyword.token :: []) = _
    rw [keyword.read? (by decide) ⟨1, true⟩ rfl]
    rfl
  | endIf ending =>
    obtain ⟨previous, read⟩ := ending.read? (by decide) (by decide) rfl rfl level
    rw [List.append_nil] at read
    exact ⟨previous, read⟩
  | selectCase keyword cases selector =>
    refine ⟨"case", ?_⟩
    change Token.read? _ _ (keyword.token :: .blank :: cases.token :: .blank :: .mark '(' ::
      selector.token :: .mark ')' :: []) = _
    rw [keyword.read? (by decide) ⟨1, false⟩ rfl, Token.read?_blank,
      cases.read? (by decide) ⟨2, false⟩ rfl, Token.read?_blank, Token.read?_mark, selector.read?,
      Token.read?_mark]
    rfl
  | caseValue keyword value =>
    refine ⟨"case", ?_⟩
    change Token.read? _ _ (keyword.token :: .blank :: .mark '(' :: value.token :: .mark ')' ::
      []) = _
    rw [keyword.read? (by decide) ⟨1, true⟩ rfl, Token.read?_blank, Token.read?_mark, Number.token,
      Token.read?_digits, Token.read?_mark]
    rfl
  | caseDefault keyword default =>
    refine ⟨"default", ?_⟩
    change Token.read? _ _ (keyword.token :: .blank :: default.token :: []) = _
    rw [keyword.read? (by decide) ⟨0, false⟩ rfl, Token.read?_blank,
      default.read? (by decide) ⟨1, true⟩ rfl]
    rfl
  | endSelect ends keyword =>
    refine ⟨"select", ?_⟩
    change Token.read? _ _ (ends.token :: .blank :: keyword.token :: []) = _
    rw [ends.read? (by decide) ⟨-1, false⟩ rfl, Token.read?_blank,
      keyword.read? (by decide) ⟨-2, false⟩ rfl]
    rfl
  | whereMask keyword mask =>
    refine ⟨"where", ?_⟩
    change Token.read? _ _ (keyword.token :: .blank :: .mark '(' :: mask.token :: .mark ')' ::
      []) = _
    rw [keyword.read? (by decide) ⟨1, false⟩ rfl, Token.read?_blank, Token.read?_mark, mask.read?,
      Token.read?_mark]
    rfl
  | elsewhere keyword =>
    refine ⟨"elsewhere", ?_⟩
    change Token.read? _ _ (keyword.token :: []) = _
    rw [keyword.read? (by decide) ⟨1, true⟩ rfl]
    rfl
  | endWhere ends keyword =>
    refine ⟨"where", ?_⟩
    change Token.read? _ _ (ends.token :: .blank :: keyword.token :: []) = _
    rw [ends.read? (by decide) ⟨-1, false⟩ rfl, Token.read?_blank,
      keyword.read? (by decide) ⟨0, false⟩ rfl]
    rfl

theorem line_condition (condition : Name) {rest : List Token}
    (later : Token.Line false true rest) :
    Token.Line true true (condition.token.parenthesized ++ rest) := by
  apply Token.line_blank
  apply Token.line_mark (.inl rfl)
  apply Token.line_word condition.proper
  exact Token.line_mark (.inr (.inl rfl)) later

theorem line_ending {word : String} (ending : Ending word) (known : word ∈ foldWords)
    (fused : "end" ++ word ∈ foldWords) (rest : List Token) (later : Token.Line true true rest) :
    Token.Line false false (ending.tokens ++ rest) := by
  cases ending with
  | apart ends kind =>
    apply Token.line_word (ends.proper (by decide))
    apply Token.line_blank
    exact Token.line_word (kind.proper known) later
  | fused ends => exact Token.line_word (ends.proper fused) later

theorem line (statement : Statement role) : Token.Line false false statement.tokens := by
  cases statement with
  | assign name value =>
    apply Token.line_word name.proper
    apply Token.line_blank
    apply Token.line_mark (.inr (.inr rfl))
    apply Token.line_blank
    exact Token.line_digits value.proper trivial
  | @begin kind keyword name =>
    apply Token.line_word (keyword.proper kind.known.1)
    apply Token.line_blank
    exact Token.line_word name.proper trivial
  | @finish kind ending name? =>
    cases name? with
    | none =>
      have ends := line_ending ending kind.known.1 kind.known.2 [] trivial
      rwa [List.append_nil] at ends
    | some name =>
      apply line_ending ending kind.known.1 kind.known.2
      apply Token.line_blank
      exact Token.line_word name.proper trivial
  | ifThen keyword condition thens =>
    apply Token.line_word (keyword.proper (by decide))
    apply line_condition condition
    apply Token.line_blank
    exact Token.line_word (thens.proper (by decide)) trivial
  | elseIf other keyword condition thens =>
    apply Token.line_word (other.proper (by decide))
    apply Token.line_blank
    apply Token.line_word (keyword.proper (by decide))
    apply line_condition condition
    apply Token.line_blank
    exact Token.line_word (thens.proper (by decide)) trivial
  | elseAlone keyword => exact Token.line_word (keyword.proper (by decide)) trivial
  | endIf ending =>
    have ends := line_ending ending (by decide) (by decide) [] trivial
    rwa [List.append_nil] at ends
  | selectCase keyword cases selector =>
    apply Token.line_word (keyword.proper (by decide))
    apply Token.line_blank
    apply Token.line_word (cases.proper (by decide))
    exact line_condition selector trivial
  | caseValue keyword value =>
    apply Token.line_word (keyword.proper (by decide))
    apply Token.line_blank
    apply Token.line_mark (.inl rfl)
    apply Token.line_digits value.proper
    exact Token.line_mark (.inr (.inl rfl)) trivial
  | caseDefault keyword default =>
    apply Token.line_word (keyword.proper (by decide))
    apply Token.line_blank
    exact Token.line_word (default.proper (by decide)) trivial
  | endSelect ends keyword =>
    apply Token.line_word (ends.proper (by decide))
    apply Token.line_blank
    exact Token.line_word (keyword.proper (by decide)) trivial
  | whereMask keyword mask =>
    apply Token.line_word (keyword.proper (by decide))
    exact line_condition mask trivial
  | elsewhere keyword => exact Token.line_word (keyword.proper (by decide)) trivial
  | endWhere ends keyword =>
    apply Token.line_word (ends.proper (by decide))
    apply Token.line_blank
    exact Token.line_word (keyword.proper (by decide)) trivial

end Statement

namespace Line

variable {role : Role}

theorem tells (line : Line role) : Token.Tells .fortran line.tokens role.effect := by
  intro level
  obtain ⟨previous, read⟩ := line.statement.tells level
  refine ⟨previous, ?_⟩
  unfold tokens
  induction line.indent with
  | zero => exact read
  | succ n ih => rwa [List.replicate_succ, List.cons_append, Token.read?_blank]

theorem proper (line : Line role) : Token.Line false false line.tokens := by
  unfold tokens
  induction line.indent with
  | zero => exact line.statement.line
  | succ n ih => exact Token.line_blank ih

end Line

end FortranMarkup

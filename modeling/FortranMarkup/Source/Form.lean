import FortranMarkup.Text.Case

/-!
# Source forms

Fortran source is written in one of two forms. Fixed form gives columns a meaning; free form does
not. The form of a file is read off its name.
-/

namespace FortranMarkup

/-- The form in which source is written. -/
inductive SourceForm where
  | fixed
  | free
deriving Repr, DecidableEq

namespace SourceForm

/-- Source is in free form unless something says otherwise. -/
instance : Inhabited SourceForm := ⟨.free⟩

/-- The name under which a form is shown. -/
def name : SourceForm → String
  | fixed => "fixed"
  | free => "free"

/-- The form with a name, in any case. Fixed form is also known as `f77`, free form as `fortran`. -/
def ofName? (name : String) : Option SourceForm :=
  match Case.small name with
  | "fixed" | "f77" => some fixed
  | "free" | "fortran" => some free
  | _ => none

/-- The extensions of files in fixed form. -/
def fixedExtensions : List String := ["f", "for", "f77", "ftn"]

/-- The extensions of files in free form. -/
def freeExtensions : List String := ["f90", "f95", "f03", "f08", "f18", "f2k", "f23"]

/-- The last name in a path. Empty parts and parts that are a single dot do not count, and the name
of the parent directory is none. -/
def fileName? (path : String) : Option (List Char) :=
  match ((path.toList.splitOn '/').filter (fun part => part ≠ [] ∧ part ≠ ['.'])).getLast? with
  | none => none
  | some name => if name = ['.', '.'] then none else some name

/-- What follows the last dot of the last name in a path, unless that dot begins the name. -/
def extension? (path : String) : Option String :=
  match fileName? path with
  | none => none
  | some name =>
    match name.reverse.span (· ≠ '.') with
    | (_, []) | (_, [_]) => none
    | (last, _) => some (String.ofList last.reverse)

/-- The form that the extension of a file tells, in any case. -/
def ofPath? (path : String) : Option SourceForm :=
  match (extension? path).map Case.small with
  | none => none
  | some extension =>
    if fixedExtensions.contains extension then some fixed
    else if freeExtensions.contains extension then some free
    else none

end SourceForm

end FortranMarkup

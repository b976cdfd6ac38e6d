import SyntaxTriage.Location
import SyntaxTriage.Reason.Debug
import SyntaxTriage.Reason.Message

/-!
Errors: reasons at the locations where they were found.
-/

namespace SyntaxTriage

structure Located (ρ : Type) where
  reason : ρ
  location : Location
  deriving DecidableEq

abbrev LexicalError := Located LexicalReason

abbrev FStringError := Located FStringReason

abbrev ParseError := Located ParseReason

inductive Family where
  | lexical
  | formatString
  | parse
  deriving DecidableEq

def Family.name : Family → String
  | lexical => "LexicalError"
  | formatString => "FStringError"
  | parse => "ParseError"

/-- An error of any family. Its reason is of the same family where the library makes it. -/
structure Diagnostic where
  family : Family
  reason : Reason
  location : Location
  deriving DecidableEq

namespace Diagnostic

def message (d : Diagnostic) : String := d.reason.message ++ " at " ++ d.location.message

def debug (d : Diagnostic) : String :=
  debugRecord d.family.name [("error", d.reason.debug), ("location", d.location.debug)]

def distinct (ds : List Diagnostic) : List Diagnostic :=
  (ds.foldl (fun kept d => if d ∈ kept then kept else d :: kept) []).reverse

end Diagnostic

def LexicalError.toDiagnostic (e : LexicalError) : Diagnostic :=
  ⟨.lexical, .lexical e.reason, e.location⟩

def FStringError.toDiagnostic (e : FStringError) : Diagnostic :=
  ⟨.formatString, .formatString e.reason, e.location⟩

def ParseError.toDiagnostic (e : ParseError) : Diagnostic :=
  ⟨.parse, .parse e.reason, e.location⟩

end SyntaxTriage

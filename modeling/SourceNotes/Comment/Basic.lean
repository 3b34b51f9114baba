/-
Comments.

A comment is a stretch of source text together with the line it starts on and
the rule that it follows.
-/
import SourceNotes.Rules.Basic

namespace SourceNotes

/-- The form of a comment, with the rule that it follows where that is known. -/
inductive Comment.Form where
  | line (rule : Option LineRule)
  | block (rule : Option BlockRule)
  deriving DecidableEq, Repr

/-- A comment, its delimiters included in the text. -/
structure Comment where
  text : Text
  /-- The line it starts on; a scan counts from 1. -/
  line : Int
  form : Comment.Form
  deriving DecidableEq, Repr

end SourceNotes

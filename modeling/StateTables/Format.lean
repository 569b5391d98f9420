import StateTables.Format.Constraint
import StateTables.Format.Layout.Statement
import StateTables.Format.Lexer
import StateTables.Format.Parser

/-! # Canonical layout of source text

Source text is read as tokens, comments and trees, and written again with canonical
indentation, blanks and columns. Comments and line ends of the text keep their place.
-/

namespace StateTables.Format

/-- The canonical layout of a source file, if the text is one. -/
def canonical (text : String) : Option String := do
  let lexemes ← Lexer.run text
  let (comments, tokens) := Comment.separate 0 [] [] #[] lexemes
  let file ← Parser.parseFile tokens
  let layout := Layout.upTo (4 * tokens.size + 8)
  let state := ((layout.file file).run (.start comments)).2
  return Cells.render (Printer.placeConstraints state.output state.formulas state.choices)

end StateTables.Format

import TemplateCompiler.Source.Cursor
import TemplateCompiler.Text.Search
import TemplateCompiler.Token.Basic

/-! Pieces of markup, and what is asked of the text at a cursor to tell them apart. -/

namespace TemplateCompiler.Lexer

open Text

def isNameChar (c : Char) : Bool :=
  !isBlank c && c != '/' && c != '>'

def problem (kind : ProblemKind) (start : Position) (cursor : Cursor) : Problem :=
  { kind, span := cursor.spanFrom start }

def startsWith (text : String) (cursor : Cursor) : Bool :=
  text.toList.isPrefixOf cursor.rest

def skipBlanks (cursor : Cursor) : Cursor :=
  cursor.skipWhile isBlank

def atTagEnd (cursor : Cursor) : Bool :=
  cursor.atEnd || startsWith ">" cursor || startsWith "/>" cursor

/-- A piece of markup: the tokens it gives, the problems behind the last of them, the cursor
behind it and the mode in which the text goes on, if it changes. -/
structure Piece where
  pulls : List Pull := []
  problems : List Problem := []
  cursor : Cursor
  /-- The element whose text comes next, if that is read in a mode of its own. -/
  inside : Option String := none

def Piece.single (token : Token) (problems : List Problem) (cursor : Cursor) : Piece :=
  { pulls := [⟨problems, token⟩], cursor }

theorem length_skipBlanks_le (cursor : Cursor) :
    (skipBlanks cursor).rest.length ≤ cursor.rest.length :=
  cursor.length_skipWhile_le _

end TemplateCompiler.Lexer

import TemplateCompiler.Text.Search

/-! Lexical cleaning of file paths: repeated slashes, `.` and `..` go away without a look at the
file system. -/

namespace TemplateCompiler.CommandLine

/-- The names of a path kept so far, innermost first, after one more part. -/
def pushPart (kept : List (List Char)) (part : List Char) : List (List Char) :=
  if part.isEmpty || part = ['.'] then kept
  else if part = ['.', '.'] then kept.tail
  else part :: kept

/-- The shortest spelling of an absolute path. -/
def cleanPath (path : String) : String :=
  let kept := (Text.pieces '/' path.toList).foldl pushPart []
  "/" ++ "/".intercalate (kept.reverse.map String.ofList)

def absolutePath (current path : String) : String :=
  if path.toList.head? = some '/' then cleanPath path else cleanPath (current ++ "/" ++ path)

end TemplateCompiler.CommandLine

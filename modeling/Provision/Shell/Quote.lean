/-!
# Words of a shell command line

`quote` writes one word so that a shell reads it back as one word: a word of plain characters stands for itself, any
other is put between single quotes, and a single quote inside it is written as `'"'"'`.  A command line is its quoted
words with one space between two.
-/
namespace Provision.Shell

/-- Characters that no shell treats specially anywhere in a word. -/
def isPlain (c : Char) : Bool :=
  c.isAlphanum || ['_', '@', '%', '+', '=', ':', ',', '.', '/', '-'].contains c

/-- The inside of a single-quoted word. -/
def escapeQuotes : List Char → List Char
  | [] => []
  | '\'' :: rest => '\'' :: '"' :: '\'' :: '"' :: '\'' :: escapeQuotes rest
  | c :: rest => c :: escapeQuotes rest

def quoteChars (w : List Char) : List Char :=
  if w = [] then ['\'', '\'']
  else if w.all isPlain then w
  else '\'' :: escapeQuotes w ++ ['\'']

/-- One word, quoted where a shell would not read it back as it is. -/
def quote (w : String) : String := String.ofList (quoteChars w.toList)

def commandLine (ws : List String) : String := " ".intercalate (ws.map quote)

def optionFlags {α : Type} (flag : α) (values : List α) : List α := values.flatMap (fun v => [flag, v])

end Provision.Shell

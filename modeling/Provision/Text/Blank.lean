/-!
# Blank characters and lines

A text is a list of characters.  `isBlank` is Unicode white space, with the four separators of ASCII (`\x1c` to `\x1f`)
among it.  `lines` cuts a text after every line boundary and loses nothing (`flatten_lines`); a carriage return and the
line feed after it are one boundary.  `indent` puts a margin before every line that is not blank.
-/
namespace Provision.Text

/-- White space: what trimming removes and what separates words. -/
def isBlank (c : Char) : Bool :=
  let n := c.toNat
  (9 ≤ n && n ≤ 13) || (28 ≤ n && n ≤ 32) || n == 0x85 || n == 0xA0 || n == 0x1680 || (0x2000 ≤ n && n ≤ 0x200A) ||
    n == 0x2028 || n == 0x2029 || n == 0x202F || n == 0x205F || n == 0x3000

def endsLine (c : Char) : Bool :=
  let n := c.toNat
  (10 ≤ n && n ≤ 13) || (28 ≤ n && n ≤ 30) || n == 0x85 || n == 0x2028 || n == 0x2029

/-- The lines of a text, each with the boundary that ends it. -/
def lines : List Char → List (List Char)
  | [] => []
  | '\r' :: '\n' :: rest => ['\r', '\n'] :: lines rest
  | c :: rest =>
    if endsLine c then [c] :: lines rest
    else match lines rest with
      | [] => [[c]]
      | l :: ls => (c :: l) :: ls

/-- Cutting into lines loses nothing. -/
theorem flatten_lines (s : List Char) : (lines s).flatten = s := by
  fun_induction lines s with
  | case1 => rfl
  | case2 rest ih => simp [ih]
  | case3 c rest _ _ ih => simp [ih]
  | case4 c rest _ _ h ih => rw [h] at ih; simpa using ih
  | case5 c rest _ _ l ls h ih => rw [h] at ih; simpa using ih

def lineBody (l : List Char) : List Char := l.takeWhile (fun c => !endsLine c)

def trimLeft (s : List Char) : List Char := s.dropWhile isBlank

def trimRight (s : List Char) : List Char := (s.reverse.dropWhile isBlank).reverse

def trim (s : List Char) : List Char := trimRight (trimLeft s)

/-- The text with `margin` before every line that holds more than blanks. -/
def indent (margin s : List Char) : List Char :=
  (lines s).flatMap (fun l => if l.all isBlank then l else margin ++ l)

/-- The maximal runs of items between separators. -/
def runs {α : Type} (isSeparator : α → Bool) : List α → List (List α)
  | [] => []
  | c :: rest =>
    if isSeparator c then runs isSeparator rest
    else match rest with
      | [] => [[c]]
      | d :: _ =>
        if isSeparator d then [c] :: runs isSeparator rest
        else match runs isSeparator rest with
          | [] => [[c]]
          | w :: ws => (c :: w) :: ws

def words : List Char → List (List Char) := runs isBlank

end Provision.Text

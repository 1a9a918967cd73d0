import Corpus.Text.Basic

/-!
# Patterns and substitution

A rule replaces every match of a pattern in a text.

* A pattern is a sequence of items, each one character of a class or as many characters of a class as
  there are; it may be bound to the start or to the end of the text.
* A run takes all characters of its class. The patterns in use never follow a run by a character of
  the same class, so giving some of them back could not help a match.
* Matches are found from left to right and do not overlap. An empty match replaces nothing and is
  followed by the next character as it is, so that one place has at most one empty match.
* The replacement repeats text and what items have matched.
-/

namespace Corpus.English

/-- **Character class.** The members, or all characters but these. -/
structure CharClass where
  members : Text
  negated : Bool := false

/-- Membership in a class. -/
def CharClass.contains (cls : CharClass) (c : Char) : Bool := cls.members.contains c != cls.negated

/-- **Item.** One character of a class, or a run of them. -/
inductive Item where
  | one (cls : CharClass)
  | many (cls : CharClass)

/-- **Pattern.** -/
structure Pattern where
  fromStart : Bool := false
  items : List Item := []
  toEnd : Bool := false

/-- What the items match at the front of a text, one text each, and the rest of it. -/
def matchItems : List Item → Text → Option (List Text × Text)
  | [], text => some ([], text)
  | .one _ :: _, [] => none
  | .one cls :: items, c :: text =>
    if cls.contains c then
      (matchItems items text).map fun found => ([c] :: found.1, found.2)
    else none
  | .many cls :: items, text =>
    (matchItems items (text.dropWhile cls.contains)).map fun found =>
      (text.takeWhile cls.contains :: found.1, found.2)

/-- **Matching.** What the items of a pattern match at the front of a text that begins the whole text
or not. -/
def Pattern.match? (pattern : Pattern) (atStart : Bool) (text : Text) : Option (List Text) :=
  if pattern.fromStart && !atStart then none
  else
    match matchItems pattern.items text with
    | none => none
    | some (found, rest) => if pattern.toEnd && !rest.isEmpty then none else some found

/-- **Piece of a replacement.** Text, or what an item has matched. -/
inductive Piece where
  | text (text : Text)
  | item (index : Nat)

/-- **Rule.** -/
structure Rule where
  pattern : Pattern
  replacement : List Piece

namespace Rule

/-- The replacement for a match. -/
def expand (rule : Rule) (found : List Text) : Text :=
  rule.replacement.flatMap fun
    | .text text => text
    | .item index => found.getD index []

/-- The text after substitution, from a place on. The next `skip` characters belong to the last
match. -/
def scan (rule : Rule) : (atStart : Bool) → (skip : Nat) → Text → Text
  | _, _ + 1, [] => []
  | _, skip + 1, _ :: text => scan rule false skip text
  | atStart, 0, [] =>
    match rule.pattern.match? atStart [] with
    | none => []
    | some found => rule.expand found
  | atStart, 0, c :: text =>
    match rule.pattern.match? atStart (c :: text) with
    | none => c :: scan rule false 0 text
    | some found =>
      match found.flatten.length with
      | 0 => rule.expand found ++ c :: scan rule false 0 text
      | skip + 1 => rule.expand found ++ scan rule false skip text

/-- **Substitution.** Every match of the pattern replaced. -/
def apply (rule : Rule) (text : Text) : Text := rule.scan true 0 text

end Rule

/-- **Rules in turn**, each on the text that the one before has left. -/
def applyRules (rules : List Rule) (text : Text) : Text :=
  rules.foldl (fun text rule => rule.apply text) text

/-! ### Writing patterns down -/

/-- One of the characters of a string. -/
def oneOf (members : String) : Item := .one { members := members.toList }

/-- A character that is not in a string. -/
def noneOf (members : String) : Item := .one { members := members.toList, negated := true }

/-- A run of characters of a string. -/
def manyOf (members : String) : Item := .many { members := members.toList }

/-- The characters of a string one after another. -/
def word (text : String) : List Item := text.toList.map fun c => .one { members := [c] }

/-- Text in a replacement. -/
def put (text : String) : Piece := .text text.toList

/-- A word replaced by a text. -/
def replace (old new : String) : Rule := { pattern := { items := word old }, replacement := [put new] }

/-- A character of a class with a space on either side. -/
def isolate (members : String) : Rule :=
  { pattern := { items := [oneOf members] }, replacement := [put " ", .item 0, put " "] }

/-- A word of which the first letter may be a capital, taken apart. The word starts with `before`, has
the letter next and goes on with `after`; `first` and `second` are written around the letter. -/
def contraction (before letters after first second : String) : Rule :=
  { pattern := { items := word before ++ [oneOf letters] ++ word after }
    replacement := [put first, .item before.length, put second] }

end Corpus.English

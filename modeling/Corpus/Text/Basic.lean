/-!
# Text

A text is the list of its code points, so that a statement about a text is a statement about a
list. It can be encoded in UTF-8: no surrogate stands in it by itself. Raw text, which may hold some, is
a type of its own.

* `breakAt` splits a list at the first occurrence of a separator, `breakOn` a text at the first
  occurrence of a word; both return what stands on either side.
* `Text.joined` puts a separator between pieces. `List.splitOn` is its other direction.
* `Text.byteLength` is the length of a text in UTF-8, the unit in which tokens are placed.
-/

namespace Corpus

/-- **Text.** A sequence of code points. -/
abbrev Text := List Char

/-- **Breaking at a separator.** The elements before the first occurrence of `sep` and those after
it, if there is one. -/
def breakAt {α : Type} [DecidableEq α] (sep : α) : List α → Option (List α × List α)
  | [] => none
  | x :: rest =>
    if x = sep then some ([], rest)
    else (breakAt sep rest).map fun parts => (x :: parts.1, parts.2)

/-- The pieces of a broken list, with the separator between them, are the list. -/
theorem eq_append_of_breakAt {α : Type} [DecidableEq α] {sep : α} {xs l r : List α}
    (h : breakAt sep xs = some (l, r)) : xs = l ++ sep :: r := by
  induction xs generalizing l with
  | nil => simp [breakAt] at h
  | cons x xs ih =>
    by_cases hx : x = sep
    · simp [breakAt, hx] at h
      obtain ⟨rfl, rfl⟩ := h
      simp [hx]
    · simp only [breakAt, hx, if_false, Option.map_eq_some_iff] at h
      obtain ⟨⟨a, b⟩, hab, he⟩ := h
      simp only [Prod.mk.injEq] at he
      obtain ⟨rfl, rfl⟩ := he
      simp [ih hab]

/-- What follows the separator is shorter than the list. -/
theorem length_lt_of_breakAt {α : Type} [DecidableEq α] {sep : α} {xs l r : List α}
    (h : breakAt sep xs = some (l, r)) : r.length < xs.length := by
  rw [eq_append_of_breakAt h]
  simp only [List.length_append, List.length_cons]
  omega

namespace Text

/-- **What is left after a word.** `some rest` when the text is the word followed by `rest`. -/
def after? : Text → Text → Option Text
  | [], text => some text
  | _ :: _, [] => none
  | w :: word, c :: text => if w = c then after? word text else none

/-- **Breaking on a word.** The text before the first occurrence of `word` and the text after it, if
it occurs. -/
def breakOn (word : Text) : Text → Option (Text × Text)
  | [] => (after? word []).map fun rest => ([], rest)
  | c :: text =>
    match after? word (c :: text) with
    | some rest => some ([], rest)
    | none => (breakOn word text).map fun parts => (c :: parts.1, parts.2)

/-- **Joined pieces.** The pieces one after another, with `sep` between neighbours. -/
def joined (sep : Text) (pieces : List Text) : Text := sep.intercalate pieces

/-- **Length in bytes.** The number of bytes of the text in UTF-8. -/
def byteLength : Text → Nat
  | [] => 0
  | c :: text => c.utf8Size + byteLength text

@[simp] theorem byteLength_nil : byteLength [] = 0 := rfl

@[simp] theorem byteLength_cons (c : Char) (text : Text) :
    byteLength (c :: text) = c.utf8Size + byteLength text := rfl

@[simp] theorem byteLength_append (a b : Text) :
    byteLength (a ++ b) = byteLength a + byteLength b := by
  induction a with
  | nil => simp
  | cons c a ih => simp [ih, Nat.add_assoc]

/-- **Without surrounding characters.** The text without the characters of a class at either end. -/
def trimmed (inClass : Char → Bool) (text : Text) : Text :=
  ((text.dropWhile inClass).reverse.dropWhile inClass).reverse

/-- The text filled up with blanks on the right to `width` characters. -/
def padded (width : Nat) (text : Text) : Text :=
  text ++ List.replicate (width - text.length) ' '

end Text

end Corpus

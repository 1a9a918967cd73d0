import Corpus.Proofs.Json.Grammar
import Corpus.Proofs.Text.Pieces
import Mathlib.Data.List.TakeDrop
import Mathlib.Data.List.TakeWhile

/-!
# Reading tokens

The readers of blanks, string literals and words take from the front of a text what the grammar says.

* Blanks are passed over up to what is none; with a mark between them (`exists_mark`) this is a step from
  one value to the next.
* A string literal is read up to its closing quotation mark, which nothing inside it can be. It is
  refused for its form only.
* No word begins another one, so that the first that fits is the one that was written.
-/

namespace Corpus.Json

variable {text rest blanks : Text} {value : Json}

/-! ### Blanks -/

/-- Blanks are passed over, up to what is none. -/
theorem skipSpace_append {c : Char} (hblanks : IsSpaces blanks) (hc : isSpace c = false) :
    skipSpace (blanks ++ c :: rest) = c :: rest := by
  rw [skipSpace, List.dropWhile_append_of_pos hblanks, List.dropWhile_cons_of_neg (by simp [hc])]

/-- What is passed over are blanks. -/
theorem exists_skipSpace (text : Text) :
    ∃ blanks, IsSpaces blanks ∧ text = blanks ++ skipSpace text :=
  ⟨text.takeWhile isSpace, fun _ => List.mem_takeWhile_imp, List.takeWhile_append_dropWhile.symm⟩

/-- Only blanks leave nothing. -/
theorem skipSpace_eq_nil_iff : skipSpace text = [] ↔ IsSpaces text :=
  List.dropWhile_eq_nil_iff

/-- What stands after a mark, from the first character that is no blank. -/
theorem exists_mark {mark : Char} {tail : Text} (h : skipSpace text = mark :: tail) :
    ∃ marked, IsMark mark marked ∧ text = marked ++ skipSpace tail := by
  obtain ⟨before, hbefore, htext⟩ := exists_skipSpace text
  obtain ⟨after, hafter, htail⟩ := exists_skipSpace tail
  refine ⟨before ++ mark :: after, ⟨before, after, hbefore, hafter, rfl⟩, ?_⟩
  rw [List.append_assoc, List.cons_append, ← htail, ← h]
  exact htext

/-! ### Results that are mapped -/

/-- A result that is mapped comes from a result. -/
theorem map_eq_ok_iff {ε α β : Type} {f : α → β} {found : Except ε α} {b : β} :
    found.map f = .ok b ↔ ∃ a, found = .ok a ∧ f a = b := by
  cases found <;> simp [Except.map]

/-- A fault is not mapped. -/
theorem map_eq_error_iff {ε α β : Type} {f : α → β} {found : Except ε α} {e : ε} :
    found.map f = .error e ↔ found = .error e := by
  cases found <;> simp [Except.map]

/-! ### Strings -/

theorem stringUnits_append {body : Text} {units : List Nat} (h : Units body units) (rest : Text) :
    stringUnits (body ++ '\x22' :: rest) = .ok (units, rest) := by
  induction h with
  | nil => rfl
  | char hlow hquote hescape _ ih =>
    rw [List.cons_append, stringUnits, if_neg (Nat.not_lt.mpr hlow), ih]
    · rfl
    · exact hquote
    · exact fun _ _ _ _ _ h _ => hescape h
    · exact fun _ _ h _ => hescape h
  | escape hletter _ ih =>
    rw [List.cons_append, List.cons_append, stringUnits, hletter]
    · exact map_eq_ok_iff.mpr ⟨_, ih, rfl⟩
    · rintro _ _ _ _ _ rfl -
      cases hletter
  | code hunit _ ih =>
    simp only [List.cons_append]
    rw [stringUnits, hunit]
    exact map_eq_ok_iff.mpr ⟨_, ih, rfl⟩

theorem exists_units {units : List Nat} (h : stringUnits text = .ok (units, rest)) :
    ∃ body, text = body ++ '\x22' :: rest ∧ Units body units := by
  fun_induction stringUnits text generalizing units with
  | case1 => cases h
  | case2 rest =>
    cases h
    exact ⟨[], rfl, .nil⟩
  | case3 => cases h
  | case4 a b c d text unit hunit ih =>
    obtain ⟨⟨units, rest⟩, hrest, hparts⟩ := map_eq_ok_iff.mp h
    cases hparts
    obtain ⟨body, rfl, hbody⟩ := ih hrest
    exact ⟨_, rfl, .code hunit hbody⟩
  | case5 => cases h
  | case6 letter text hcode c hletter ih =>
    obtain ⟨⟨units, rest⟩, hrest, hparts⟩ := map_eq_ok_iff.mp h
    cases hparts
    obtain ⟨body, rfl, hbody⟩ := ih hrest
    exact ⟨_, rfl, .escape hletter hbody⟩
  | case7 => cases h
  | case8 c text hquote hcode hletter hlow ih =>
    obtain ⟨⟨units, rest⟩, hrest, hparts⟩ := map_eq_ok_iff.mp h
    cases hparts
    obtain ⟨body, rfl, hbody⟩ := ih hrest
    -- a backslash would have been taken with the letter after it
    have hescape : c ≠ '\\' := by
      rintro rfl
      obtain ⟨d, tail, htail⟩ := List.exists_cons_of_ne_nil
        (List.append_ne_nil_of_right_ne_nil body (List.cons_ne_nil '\x22' rest))
      exact hletter d tail rfl htail
    exact ⟨_, rfl, .char (Nat.not_lt.mp hlow) hquote hescape hbody⟩

/-- A string is refused for its form only. -/
theorem eq_malformed_of_stringUnits {fault : Fault} (h : stringUnits text = .error fault) :
    fault = .malformed := by
  fun_induction stringUnits text with
  | case1 => exact (Except.error.inj h).symm
  | case2 => cases h
  | case3 => exact (Except.error.inj h).symm
  | case4 _ _ _ _ _ _ _ ih => exact ih (map_eq_error_iff.mp h)
  | case5 => exact (Except.error.inj h).symm
  | case6 _ _ _ _ _ ih => exact ih (map_eq_error_iff.mp h)
  | case7 => exact (Except.error.inj h).symm
  | case8 _ _ _ _ _ _ ih => exact ih (map_eq_error_iff.mp h)

/-- **String literals** are read as their texts, after the first quotation mark. -/
theorem readString_eq_ok_iff {found : RawText} :
    readString text = .ok (found, rest) ↔
      ∃ literal, Literal literal found ∧ '\x22' :: text = literal ++ rest := by
  rw [readString, map_eq_ok_iff]
  constructor
  · rintro ⟨⟨units, tail⟩, hunits, hparts⟩
    cases hparts
    obtain ⟨body, rfl, hbody⟩ := exists_units hunits
    exact ⟨_, .quoted hbody, by simp⟩
  · rintro ⟨_, ⟨hbody⟩, htext⟩
    rw [List.cons_append, List.append_assoc] at htext
    obtain rfl := (List.cons.inj htext).2
    exact ⟨_, stringUnits_append hbody rest, rfl⟩

theorem eq_malformed_of_readString {fault : Fault} (h : readString text = .error fault) :
    fault = .malformed :=
  eq_malformed_of_stringUnits (map_eq_error_iff.mp h)

/-! ### Words -/

theorem readWord?_eq_some_iff :
    readWord? text = some (value, rest) ↔ ∃ word, (word, value) ∈ words ∧ text = word ++ rest := by
  constructor
  · intro h
    obtain ⟨⟨word, found⟩, hword, hfound⟩ := List.exists_of_findSome?_eq_some h
    obtain ⟨tail, htail, hparts⟩ := Option.map_eq_some_iff.mp hfound
    cases hparts
    exact ⟨word, hword, Text.after?_eq_some_iff.mp htail⟩
  · rintro ⟨word, hword, rfl⟩
    -- no word begins another one, so that the first that fits is this one
    simp only [words, List.mem_cons, List.not_mem_nil, or_false, Prod.mk.injEq] at hword
    rcases hword with ⟨rfl, rfl⟩ | ⟨rfl, rfl⟩ | ⟨rfl, rfl⟩ | ⟨rfl, rfl⟩ | ⟨rfl, rfl⟩ | ⟨rfl, rfl⟩ <;> rfl

end Corpus.Json

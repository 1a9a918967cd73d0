import Corpus.Proofs.English.TakingApart

/-!
# The spaces of a rewritten text

A text is evenly spaced when it has no space in front, no two spaces next to each other and a space at
its end, if it has an end.

* This can be taken apart word by word (`isEvenlySpaced_append_iff`), so that words with a space after
  each are evenly spaced when none of them is empty.
* Hence an evenly spaced text is determined by its words: it is these words, with a space after each
  (`ended_spacedWords_eq_iff`).
* Rewriting ends with words between spaces of which the empty ones are dropped. Whatever the rules
  before have done to the spaces of a text, they leave it evenly spaced.
-/

namespace Corpus.English

variable {text word rest : Text} {words : List Text}

/-- **Even spacing.** -/
structure IsEvenlySpaced (text : Text) : Prop where
  front : text.head? ≠ some ' '
  apart : ¬ [' ', ' '] <:+: text
  back : text ≠ [] → text.getLast? = some ' '

/-- Two spaces behind a word are there, or the space behind the word is one of them. -/
theorem isInfix_append_space_iff (h : ' ' ∉ word) :
    [' ', ' '] <:+: word ++ ' ' :: rest ↔ rest.head? = some ' ' ∨ [' ', ' '] <:+: rest := by
  induction word with
  | nil =>
    have hfront : [' '] <+: rest ↔ rest.head? = some ' ' := by
      rw [List.head?_eq_some_iff]
      exact ⟨fun ⟨tail, htail⟩ => ⟨tail, htail.symm⟩, fun ⟨tail, htail⟩ => ⟨tail, htail.symm⟩⟩
    rw [List.nil_append, List.infix_cons_iff, List.prefix_cons_inj, hfront]
  | cons c word ih =>
    rw [List.mem_cons, not_or] at h
    rw [List.cons_append, List.infix_cons_iff, List.cons_prefix_cons, ih h.2]
    simp [h.1]

/-- **Even spacing word by word.** -/
theorem isEvenlySpaced_append_iff (h : ' ' ∉ word) :
    IsEvenlySpaced (word ++ ' ' :: rest) ↔ word ≠ [] ∧ IsEvenlySpaced rest := by
  have hfront : (word ++ ' ' :: rest).head? ≠ some ' ' ↔ word ≠ [] := by
    cases word with
    | nil => simp
    | cons c word =>
      have hc : c ≠ ' ' := fun hc => h (hc ▸ List.mem_cons_self)
      simp [hc]
  have hback : (word ++ ' ' :: rest).getLast? = some ' ' ↔ (rest ≠ [] → rest.getLast? = some ' ') := by
    rw [List.getLast?_append_cons]
    cases rest with
    | nil => simp
    | cons c rest => simp
  constructor
  · intro hspaced
    obtain ⟨hnone, hsome⟩ := not_or.mp (mt (isInfix_append_space_iff h).mpr hspaced.apart)
    exact ⟨hfront.mp hspaced.front, hnone, hsome, hback.mp (hspaced.back (by simp))⟩
  · rintro ⟨hne, hspaced⟩
    refine ⟨hfront.mpr hne, ?_, fun _ => hback.mpr hspaced.back⟩
    rw [isInfix_append_space_iff h]
    exact not_or.mpr ⟨hspaced.front, hspaced.apart⟩

/-- Words with a space after each are evenly spaced when none of them is empty. -/
theorem isEvenlySpaced_ended_iff (h : ∀ word ∈ words, ' ' ∉ word) :
    IsEvenlySpaced (ended words) ↔ [] ∉ words := by
  induction words with
  | nil => exact ⟨fun _ => List.not_mem_nil, fun _ => ⟨nofun, by simp, fun hne => absurd rfl hne⟩⟩
  | cons word words ih =>
    obtain ⟨hword, hwords⟩ := List.forall_mem_cons.mp h
    rw [ended_cons, isEvenlySpaced_append_iff hword, ih hwords, List.mem_cons, not_or, ne_comm]

/-- **An evenly spaced text** is its words with a space after each. -/
theorem ended_spacedWords_eq_iff : ended (spacedWords text) = text ↔ IsEvenlySpaced text := by
  constructor
  · intro h
    rw [← h, isEvenlySpaced_ended_iff fun word hword => (forall_mem_spacedWords text word hword).2]
    exact fun hmem => (forall_mem_spacedWords text [] hmem).1 rfl
  · intro h
    obtain ⟨words, hspace, rfl⟩ := exists_ended h.back
    have hne : [] ∉ words := (isEvenlySpaced_ended_iff hspace).mp h
    rw [spacedWords_ended_of_ne_nil fun word hword =>
      ⟨ne_of_mem_of_not_mem hword hne, hspace word hword⟩]

/-- A space after each word is a space between neighbours and one at the end. -/
theorem ended_eq_wordText (words : List Text) :
    ended words = if words = [] then [] else wordText words ++ [' '] := by
  rcases List.eq_nil_or_concat words with rfl | ⟨before, last, rfl⟩
  · rfl
  · rw [List.concat_eq_append, if_neg (by simp), wordText_concat, ended_append, ended_cons, ended_nil,
      List.append_assoc]

/-- **Rewriting spaces evenly.** A rewritten text is empty when it has no tokens, and otherwise the
text of its tokens with one space behind it. -/
theorem rewrite_evenly_spaced (text : Text) :
    rewrite text =
        (if wordTokens (spacedWords (rewrite text)) = [] then []
          else wordText (spacedWords (rewrite text)) ++ [' ']) ∧
      IsEvenlySpaced (rewrite text) := by
  have hended : ended (spacedWords (rewrite text)) = rewrite text := by
    obtain ⟨words, hrewrite, hwords⟩ := exists_rewrite_eq_ended text
    rw [hwords, hrewrite]
  have hnil : wordTokens (spacedWords (rewrite text)) = [] ↔ spacedWords (rewrite text) = [] := by
    rw [← List.length_eq_zero_iff, wordTokens, Token.length_placed, List.length_eq_zero_iff]
  refine ⟨?_, ended_spacedWords_eq_iff.mp hended⟩
  rw [if_congr hnil rfl rfl, ← ended_eq_wordText, hended]

end Corpus.English

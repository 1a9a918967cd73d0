import Corpus.Proofs.English.Spread
import Corpus.Sentence.Placement
import Mathlib.Data.List.Infix

/-!
# Punctuation stands by itself

A word is isolated in a text when nothing but the word is around it between two spaces. A rule that
puts a space on either side of what it finds isolates it (`Rule.Isolates.isolated`), and no later
rule undoes this: most of them only put in more spaces, and the others write names in the place of
characters that are isolated themselves (`isolated_applyRules_ofChar`).
-/

namespace Corpus.English

variable {rule : Rule} {rules : List Rule} {word stretch text new : Text} {found : List Text}
  {atStart : Bool}

/-- **Isolation.** Whatever stands without a space in the text and holds the word is the word. -/
def Isolated (word text : Text) : Prop :=
  ∀ stretch, ' ' ∉ stretch → stretch <:+: text → word <:+: stretch → stretch = word

/-- Spreading a text out keeps what is isolated. -/
theorem Isolated.applyRules (h : Isolated word text) (hrules : ∀ rule ∈ rules, rule.Spreads) :
    Isolated word (applyRules rules text) :=
  fun stretch hspace hwithin =>
    h stretch hspace (isInfix_of_isInfix_applyRules hrules hspace hwithin)

/-- What is isolated is so in the end of a text. -/
theorem Isolated.of_suffix (h : Isolated word text) (hsuffix : new <:+ text) : Isolated word new :=
  fun stretch hspace hwithin => h stretch hspace (hwithin.trans hsuffix.isInfix)

/-! ### Isolating -/

/-- **A rule that isolates** what it finds. -/
def Rule.Isolates (rule : Rule) : Prop :=
  rule.pattern.IsPlain ∧ ∀ found ∈ rule.pattern.choices, found.flatten ≠ [] ∧
    ' ' ∉ found.flatten ∧ rule.expand found = ' ' :: (found.flatten ++ [' '])

instance (rule : Rule) : Decidable rule.Isolates := inferInstanceAs (Decidable (_ ∧ _))

namespace Rule.Isolates

/-- At the front of what such a rule leaves there is only old text, without a match. -/
theorem isPrefix (h : rule.Isolates) (hrewrites : rule.Rewrites atStart text new)
    (hspace : ' ' ∉ stretch) (hbegins : stretch <+: new) :
    stretch <+: text ∧ ∀ found ∈ rule.pattern.choices, ¬ found.flatten <:+: stretch := by
  obtain ⟨hplain, hchoices⟩ := h
  have hnil : ∀ found ∈ rule.pattern.choices, ¬ found.flatten <:+: [] :=
    fun found hfound hwithin => (hchoices found hfound).1 (List.infix_nil.mp hwithin)
  induction hrewrites generalizing stretch with
  | stop =>
    obtain rfl := List.prefix_nil.mp hbegins
    exact ⟨hbegins, hnil⟩
  | last hfound =>
    obtain ⟨hchoice, hmatch⟩ := hplain.match?_eq_some_iff.mp hfound
    exact absurd hmatch.isInfix (hnil _ hchoice)
  | @keep atStart c text new hnone _ ih =>
    rcases List.prefix_cons_iff.mp hbegins with rfl | ⟨tail, rfl, htail⟩
    · exact ⟨List.nil_prefix, hnil⟩
    · obtain ⟨hold, hno⟩ := ih (fun hmem => hspace (List.mem_cons_of_mem _ hmem)) htail
      have hold : c :: tail <+: c :: text := (List.prefix_cons_inj c).mpr hold
      refine ⟨hold, fun found hfound hwithin => ?_⟩
      rcases List.infix_cons_iff.mp hwithin with hfront | hwithin
      · have hmatch : rule.pattern.match? atStart (c :: text) = some found :=
          hplain.match?_eq_some_iff.mpr ⟨hfound, hfront.trans hold⟩
        rw [hnone] at hmatch
        cases hmatch
      · exact hno found hfound hwithin
  | pass hfound hempty =>
    exact absurd hempty (hchoices _ (hplain.match?_eq_some_iff.mp hfound).1).1
  | put hfound =>
    obtain ⟨-, -, hwritten⟩ := hchoices _ (hplain.match?_eq_some_iff.mp hfound).1
    rw [hwritten, List.cons_append] at hbegins
    rcases List.prefix_cons_iff.mp hbegins with rfl | ⟨tail, rfl, -⟩
    · exact ⟨List.nil_prefix, hnil⟩
    · exact absurd List.mem_cons_self hspace

/-- **What an isolating rule finds is isolated** by it. -/
theorem isolated (h : rule.Isolates) (hrewrites : rule.Rewrites atStart text new)
    (hfound : found ∈ rule.pattern.choices) : Isolated found.flatten new := by
  intro stretch hspace hwithin hmatch
  obtain ⟨hplain, hchoices⟩ := h
  induction hrewrites with
  | stop =>
    obtain rfl := List.infix_nil.mp hwithin
    exact (List.infix_nil.mp hmatch).symm
  | last hlast =>
    obtain ⟨hchoice, hempty⟩ := hplain.match?_eq_some_iff.mp hlast
    exact absurd (List.prefix_nil.mp hempty) (hchoices _ hchoice).1
  | keep hnone hrest ih =>
    rcases List.infix_cons_iff.mp hwithin with hbegins | hwithin
    · exact absurd hmatch
        ((isPrefix ⟨hplain, hchoices⟩ (.keep hnone hrest) hspace hbegins).2 found hfound)
    · exact ih hwithin
  | pass hother hempty =>
    exact absurd hempty (hchoices _ (hplain.match?_eq_some_iff.mp hother).1).1
  | @put _ other rest new hother _ _ ih =>
    obtain ⟨hchoice, -⟩ := hplain.match?_eq_some_iff.mp hother
    obtain ⟨-, -, hwritten⟩ := hchoices _ hchoice
    rw [hwritten, List.cons_append, List.append_assoc, List.singleton_append] at hwithin
    have hwithin : stretch <:+: [] ++ ' ' :: (other.flatten ++ ' ' :: new) := hwithin
    rcases (isInfix_append_cons_iff hspace).mp hwithin with hwithin | hwithin
    · obtain rfl := List.infix_nil.mp hwithin
      exact (List.infix_nil.mp hmatch).symm
    · rcases (isInfix_append_cons_iff hspace).mp hwithin with hwithin | hwithin
      · -- two choices of one length, the one inside the other
        have hlength : found.flatten.length = _ :=
          (length_flatten_of_mem_choices hplain.2.2 hfound).trans
            (length_flatten_of_mem_choices hplain.2.2 hchoice).symm
        have hle := hwithin.length_le
        exact (hmatch.eq_of_length (Nat.le_antisymm hmatch.length_le (hlength ▸ hle))).symm
      · exact ih hwithin

end Rule.Isolates

/-- **One rule isolates, the others do not undo it.** -/
theorem isolated_applyRules_of_mem (hrules : ∀ rule ∈ rules, rule.Spreads) (hrule : rule ∈ rules)
    (h : rule.Isolates) (hfound : found ∈ rule.pattern.choices) (text : Text) :
    Isolated found.flatten (applyRules rules text) := by
  obtain ⟨before, after, rfl⟩ := List.append_of_mem hrule
  rw [applyRules_append]
  exact (h.isolated (rule.rewrites_apply _) hfound).applyRules fun rule hrule =>
    hrules rule (List.mem_append_right _ (List.mem_cons_of_mem _ hrule))

/-! ### Names in the place of characters -/

/-- **A name in the place of an isolated character** leaves isolated what is not in the name. -/
theorem isolated_apply_ofChar {c : Char} {name : Text} (hc : Isolated [c] text) (hne : c ≠ ' ')
    (hspace : ' ' ∉ name) (hname : ¬ word <:+: name) (h : Isolated word text) :
    Isolated word ((Rule.ofChar c name).apply text) := by
  intro stretch hstretch hwithin hword
  -- the pieces of the new text are the old ones, of which the character may be one
  rw [Rule.apply_ofChar] at hwithin
  obtain ⟨piece, hpiece, hin⟩ := exists_mem_splitOn_of_isInfix hstretch hwithin
  rw [splitOn_flatMap (by simp [Ne.symm hne]) fun d hd hmem => ?_, List.mem_map] at hpiece
  · obtain ⟨old, hold, rfl⟩ := hpiece
    have hspaceold := not_mem_of_mem_splitOn hold
    have hwithinold := isInfix_of_mem_splitOn hold
    by_cases hmem : c ∈ old
    · obtain rfl := hc old hspaceold hwithinold ((List.singleton_infix_iff c old).mpr hmem)
      rw [List.flatMap_singleton, if_pos rfl] at hin
      exact absurd (hword.trans hin) hname
    · have hsame : (old.flatMap fun d => if d = c then name else [d]) = old := by
        conv_rhs => rw [← List.flatMap_singleton' old]
        exact List.flatMap_congr fun d hd => if_neg fun (heq : d = c) => hmem (heq ▸ hd)
      rw [hsame] at hin
      exact h stretch hstretch (List.IsInfix.trans hin hwithinold) hword
  · split at hmem
    · exact hspace hmem
    · exact hd (List.mem_singleton.mp hmem).symm

/-- **Names in turn.** Every character that gets a name is isolated, too. -/
theorem isolated_applyRules_ofChar {words : List Text} {names : List (Char × Text)}
    (hnames : ∀ name ∈ names, [name.1] ∈ words ∧ name.1 ≠ ' ' ∧ ' ' ∉ name.2 ∧
      ∀ word ∈ words, ¬ word <:+: name.2)
    (h : ∀ word ∈ words, Isolated word text) :
    ∀ word ∈ words,
      Isolated word (applyRules (names.map fun name => Rule.ofChar name.1 name.2) text) := by
  induction names generalizing text with
  | nil => exact h
  | cons name names ih =>
    obtain ⟨⟨hmem, hne, hspace, hname⟩, hnames⟩ := List.forall_mem_cons.mp hnames
    exact ih hnames fun word hword =>
      isolated_apply_ofChar (h _ hmem) hne hspace (hname word hword) (h word hword)

/-- A name between spaces is put in the place of a character that has been isolated before. -/
theorem apply_ofChar_spaced {c : Char} (hc : c ≠ ' ') (name text : Text) :
    (Rule.ofChar c (' ' :: (name ++ [' ']))).apply text =
      (Rule.ofChar c name).apply ((Rule.ofChar c [' ', c, ' ']).apply text) := by
  rw [Rule.apply_ofChar, Rule.apply_ofChar, Rule.apply_ofChar, List.flatMap_assoc]
  refine List.flatMap_congr fun d _ => ?_
  by_cases hd : d = c
  · simp only [if_pos hd]
    simp [Ne.symm hc]
  · simp [hd]

/-! ### The table -/

/-- The marks that the rules for punctuation isolate. -/
def punctuationMarks : List Text :=
  "...".toList :: ",;:@#$%&?!][()\x7b\x7d<>".toList.map ([·])

theorem isolated_punctuationRules (text : Text) :
    ∀ word ∈ punctuationMarks, Isolated word (applyRules punctuationRules text) := by
  have htable : ∀ word ∈ punctuationMarks, ∃ rule ∈ punctuationRules, rule.Isolates ∧
      ∃ found ∈ rule.pattern.choices, found.flatten = word := by
    decide
  intro word hword
  obtain ⟨rule, hrule, hisolates, found, hfound, rfl⟩ := htable word hword
  exact isolated_applyRules_of_mem spreads_punctuationRules hrule hisolates hfound text

/-- All marks, each isolated when the contractions are taken apart. -/
def isolatedMarks : List Text := "--".toList :: punctuationMarks

/-- Brackets get their names and hyphens are isolated. -/
theorem isolated_spacingRules (text : Text) : ∀ word ∈ isolatedMarks,
    Isolated word (applyRules spacingRules (applyRules (bracketNames.map fun name =>
      Rule.ofChar name.1 name.2) (applyRules punctuationRules text))) := by
  have htable : ∀ name ∈ bracketNames, [name.1] ∈ punctuationMarks ∧ name.1 ≠ ' ' ∧
      ' ' ∉ name.2 ∧ ∀ word ∈ punctuationMarks, ¬ word <:+: name.2 := by
    decide
  have hnames := isolated_applyRules_ofChar htable (isolated_punctuationRules text)
  have hhyphens : replace "--" " -- " ∈ spacingRules := List.mem_cons_self
  exact List.forall_mem_cons.mpr
    ⟨isolated_applyRules_of_mem spreads_spacingRules hhyphens (by decide) List.mem_cons_self _,
      fun word hword => (hnames word hword).applyRules spreads_spacingRules⟩

/-- Closing quotation marks are isolated before they are turned. -/
theorem Isolated.apply_closing (h : Isolated word text) (hname : ¬ word <:+: "\x27\x27".toList) :
    Isolated word ((Rule.ofChar '\x22' " \x27\x27 ".toList).apply text) := by
  have hne : '\x22' ≠ ' ' := by decide
  have hquote : (Rule.ofChar '\x22' " \x22 ".toList).Isolates := by decide
  have hspreads : (Rule.ofChar '\x22' " \x22 ".toList).Spreads :=
    Rule.spreads_of_choices (by decide) (by decide)
  have hmark : [['\x22']] ∈ (Rule.ofChar '\x22' " \x22 ".toList).pattern.choices := by decide
  refine (apply_ofChar_spaced hne "\x27\x27".toList text).symm ▸
    isolated_apply_ofChar ?_ hne (by decide) hname ?_
  · exact hquote.isolated (Rule.rewrites_apply _ _) hmark
  · exact fun stretch hspace hwithin =>
      h stretch hspace ((hspreads text).isInfix hspace hwithin)

/-- **Marks are isolated** in a rewritten text. -/
theorem isolated_rewrite (text : Text) : ∀ word ∈ isolatedMarks, Isolated word (rewrite text) := by
  have hname : ∀ word ∈ isolatedMarks, ¬ word <:+: "\x27\x27".toList := by decide
  have hspread : ∀ rule ∈ closingQuoteRule :: (cliticRules ++ wordRules ++ [collapseRule]),
      rule.Spreads :=
    List.forall_mem_cons.mpr ⟨spreads_closingQuoteRule, List.forall_mem_append.mpr
      ⟨spreads_takingApart, List.forall_mem_singleton.mpr spreads_collapseRule⟩⟩
  have hrules : contractionRules =
      (closingQuoteRule :: (cliticRules ++ wordRules ++ [collapseRule])) ++ [trimRule] := by
    rw [contractionRules_eq]
    simp only [List.cons_append, List.append_assoc, List.nil_append]
  intro word hword
  rw [rewrite, tokenization_eq, hrules]
  simp only [applyRules_append]
  generalize applyRules [openingRule, innerRule] (applyRules preprocessing text) = opened
  have hclosed := (isolated_spacingRules opened word hword).apply_closing (hname word hword)
  rw [applyRules_cons trimRule, applyRules_nil, apply_trimRule,
    applyRules_cons (Rule.ofChar '\x22' " \x27\x27 ".toList), applyRules_nil]
  exact (hclosed.applyRules hspread).of_suffix (List.dropWhile_suffix _)

/-- Brackets and double quotes are gone. -/
theorem not_mem_rewrite (text : Text) : ∀ c ∈ "()[]\x7b\x7d\x22".toList, c ∉ rewrite text := by
  have htable : tokenization.all (fun rule =>
      rule.written.all (· ∉ "()[]\x7b\x7d\x22".toList)) = true := by
    decide
  intro c hc
  have hwritten : ∀ rule ∈ tokenization, c ∉ rule.written := fun rule hrule hmem =>
    of_decide_eq_true (List.all_eq_true.mp (List.all_eq_true.mp htable rule hrule) c hmem) hc
  have hother (hmem : c ∈ otherBrackets) : c ∉ rewrite text :=
    not_mem_applyRules_of_not_mem hwritten fun htext =>
      not_mem_otherBrackets_preprocessing text c htext hmem
  have hnamed {new : Text} (hrule : Rule.ofChar c new ∈ tokenization) : c ∉ rewrite text :=
    not_mem_applyRules hrule hwritten _
  have hc : c ∈ ['(', ')', '[', ']', '\x7b', '\x7d', '\x22'] := hc
  simp only [List.mem_cons, List.not_mem_nil, or_false] at hc
  rcases hc with rfl | rfl | rfl | rfl | rfl | rfl | rfl
  · exact hnamed (List.mem_of_getElem? (i := 7) rfl)
  · exact hnamed (List.mem_of_getElem? (i := 8) rfl)
  · exact hother (by decide)
  · exact hother (by decide)
  · exact hother (by decide)
  · exact hother (by decide)
  · exact hnamed (List.mem_of_getElem? (i := 16) rfl)

/-- **Punctuation stands by itself.** In the words of a rewritten text there are no brackets and no
double quotes; a mark of punctuation, two hyphens and three dots are each a word. -/
theorem marks_stand_alone {text piece : Text} (h : piece ∈ spacedWords (rewrite text)) :
    (∀ c ∈ "()[]\x7b\x7d\x22".toList, c ∉ piece) ∧
      (∀ c ∈ ",;:@#$%&?!<>".toList, c ∈ piece → piece = [c]) ∧
      ("--".toList <:+: piece → piece = "--".toList) ∧
      ("...".toList <:+: piece → piece = "...".toList) := by
  rw [spacedWords, List.mem_filter] at h
  obtain ⟨hpiece, -⟩ := h
  have hwithin : piece <:+: rewrite text := isInfix_of_mem_splitOn hpiece
  have halone : ∀ word ∈ isolatedMarks, word <:+: piece → piece = word := fun word hword =>
    isolated_rewrite text word hword piece (not_mem_of_mem_splitOn hpiece) hwithin
  refine ⟨fun c hc hmem => not_mem_rewrite text c hc (hwithin.subset hmem), fun c hc hmem => ?_,
    halone "--".toList (by decide), halone "...".toList (by decide)⟩
  have htable : ",;:@#$%&?!<>".toList.all (fun c => [c] ∈ isolatedMarks) = true := by decide
  have hmark : [c] ∈ isolatedMarks := of_decide_eq_true (List.all_eq_true.mp htable c hc)
  exact halone [c] hmark ((List.singleton_infix_iff c piece).mpr hmem)

/-- Two hyphens between words, of three that were there. -/
theorem marks_stand_alone_dashes :
    "--".toList ∈ spacedWords (rewrite "a---b".toList) ∧
      (∀ c ∈ "()[]\x7b\x7d\x22".toList, c ∉ "--".toList) ∧
      (∀ c ∈ ",;:@#$%&?!<>".toList, c ∈ "--".toList → "--".toList = [c]) ∧
      ("--".toList <:+: "--".toList → "--".toList = "--".toList) ∧
      ("...".toList <:+: "--".toList → "--".toList = "...".toList) := by
  have h : "--".toList ∈ spacedWords (rewrite "a---b".toList) := by decide +kernel
  exact ⟨h, marks_stand_alone h⟩

end Corpus.English

import Corpus.Proofs.English.Spread
import Corpus.Sentence.Placement

/-!
# Taking words apart

From the closing single quotes on, a text stands between two spaces, and the rules that are left can
be read as working on its words.

* A rule for clitics detaches an ending from every word that has it (`detach`).
* A rule for contractions takes apart the words it knows (`takeApart`). A match takes the space on
  either side with it, so of two such words that stand next to each other the second one has no
  space left in front, and stays.
* The last two rules drop the empty words.

So what a text becomes can be computed on its words, `applyRules_spaced`.
-/

namespace Corpus.English

variable {rule : Rule} {word rest text : Text} {words : List Text} {endings : List Text}
  {forms : List (List Text)}

/-! ### Words and spaces -/

/-- Words with a space after each. -/
def ended (words : List Text) : Text := words.flatMap (· ++ [' '])

/-- **Words between spaces.** -/
def spaced (words : List Text) : Text := ' ' :: ended words

@[simp] theorem ended_nil : ended [] = [] := rfl

@[simp] theorem ended_cons (word : Text) (words : List Text) :
    ended (word :: words) = word ++ ' ' :: ended words := by
  rw [ended, List.flatMap_cons, List.append_assoc, List.singleton_append, ended]

@[simp] theorem ended_append (words others : List Text) :
    ended (words ++ others) = ended words ++ ended others := List.flatMap_append

/-- A character more in the first word is one more in front. -/
theorem ended_modifyHead {c : Char} (h : words ≠ []) :
    ended (words.modifyHead (c :: ·)) = c :: ended words := by
  obtain ⟨first, others, rfl⟩ := List.exists_cons_of_ne_nil h
  rw [List.modifyHead_cons, ended_cons, ended_cons, List.cons_append]

theorem spaced_eq_ended (words : List Text) : spaced words = ended ([] :: words) :=
  (ended_cons [] words).symm

theorem wordText_concat (words : List Text) (last : Text) :
    wordText (words ++ [last]) = ended words ++ last := by
  induction words with
  | nil => simp [wordText, Text.joined]
  | cons word words ih =>
    obtain ⟨next, rest, hrest⟩ :=
      List.exists_cons_of_ne_nil (List.append_ne_nil_of_right_ne_nil words (List.cons_ne_nil last []))
    rw [wordText, hrest] at ih
    rw [wordText, List.cons_append, hrest, Text.joined, List.intercalate_cons_cons, ← Text.joined, ih,
      ended_cons, List.append_assoc, List.append_assoc]
    rfl

/-- A text that ends in a space is words with a space after each. -/
theorem exists_ended (h : text ≠ [] → text.getLast? = some ' ') :
    ∃ words, (∀ word ∈ words, ' ' ∉ word) ∧ text = ended words := by
  induction text using separator_induction ' ' with
  | whole text hspace =>
    have hnil : text = [] := by
      by_contra hne
      exact hspace (List.mem_of_getLast? (h hne))
    exact ⟨[], List.forall_mem_nil _, hnil⟩
  | cut front rest hfront ih =>
    obtain ⟨words, hwords, rfl⟩ := ih fun hne => by
      have hlast := h (by simp)
      rwa [List.getLast?_append_cons, List.getLast?_cons_of_ne_nil hne] at hlast
    exact ⟨front :: words, List.forall_mem_cons.mpr ⟨hfront, hwords⟩, (ended_cons front words).symm⟩

/-! ### Scanning words -/

namespace Rule

/-- A rule that finds nothing without a space in front passes over a word. -/
theorem scan_word (h : ∀ c text found, rule.pattern.match? false (c :: text) = some found → c = ' ')
    (hspace : ' ' ∉ word) (rest : Text) :
    rule.scan false 0 (word ++ rest) = word ++ rule.scan false 0 rest := by
  induction word with
  | nil => rfl
  | cons c word ih =>
    rw [List.mem_cons, not_or] at hspace
    have hnone : rule.pattern.match? false (c :: (word ++ rest)) = none := by
      rw [Option.eq_none_iff_forall_ne_some]
      exact fun found hfound => hspace.1 (h c _ found hfound).symm
    rw [List.cons_append, scan_cons_of_none hnone, ih hspace.2, List.cons_append]

end Rule

/-! ### Clitics -/

/-- **Detaching.** A word without its ending, and the ending. -/
def detach (endings : List Text) : Text → List Text
  | [] => [[]]
  | c :: word =>
    if endings.contains (c :: word) then [[], c :: word]
    else (detach endings word).modifyHead (c :: ·)

/-- **A word has one of the endings or stays.** -/
theorem detach_cases (hne : [] ∉ endings) (word : Text) :
    (detach endings word = [word] ∧ ∀ ending ∈ endings, ¬ ending <:+ word) ∨
      ∃ front, ∃ ending ∈ endings, word = front ++ ending ∧
        detach endings word = [front, ending] := by
  induction word with
  | nil =>
    refine .inl ⟨rfl, fun ending hending hsuffix => ?_⟩
    exact hne (List.suffix_nil.mp hsuffix ▸ hending)
  | cons c word ih =>
    rw [detach]
    split
    · rename_i hmem
      exact .inr ⟨[], c :: word, List.contains_iff_mem.mp hmem, rfl, rfl⟩
    · rename_i hmem
      rw [List.contains_iff_mem] at hmem
      rcases ih with ⟨hstay, hno⟩ | ⟨front, ending, hending, hword, hdetach⟩
      · refine .inl ⟨by rw [hstay]; rfl, fun ending hending hsuffix => ?_⟩
        rcases List.suffix_cons_iff.mp hsuffix with rfl | hsuffix
        · exact hmem hending
        · exact hno ending hending hsuffix
      · exact .inr ⟨c :: front, ending, hending, by rw [hword]; rfl, by rw [hdetach]; rfl⟩

theorem detach_ne_nil (hne : [] ∉ endings) (word : Text) : detach endings word ≠ [] := by
  rcases detach_cases hne word with ⟨hdetach, -⟩ | ⟨_, _, -, -, hdetach⟩
  · exact hdetach ▸ List.cons_ne_nil _ _
  · exact hdetach ▸ List.cons_ne_nil _ _

/-- Detaching loses nothing. -/
theorem flatten_detach (hne : [] ∉ endings) (word : Text) :
    (detach endings word).flatten = word := by
  rcases detach_cases hne word with ⟨hdetach, -⟩ | ⟨front, ending, -, hword, hdetach⟩
  · rw [hdetach, List.flatten_singleton]
  · rw [hdetach, hword]
    simp

/-- **A rule for clitics** detaches the endings. -/
def Rule.Detaches (rule : Rule) (endings : List Text) : Prop :=
  rule.pattern.IsPlain ∧
    (∀ found ∈ rule.pattern.choices, ∃ ending ∈ endings, found.flatten = ending ++ [' '] ∧
      rule.expand found = ' ' :: (ending ++ [' '])) ∧
    ∀ ending ∈ endings, ending ≠ [] ∧ ' ' ∉ ending ∧
      ∃ found ∈ rule.pattern.choices, found.flatten = ending ++ [' ']

instance (rule : Rule) (endings : List Text) : Decidable (rule.Detaches endings) :=
  inferInstanceAs (Decidable (_ ∧ _ ∧ _))

/-- An ending with its space stands at the front of a word with a space if it is the word. -/
theorem eq_of_isPrefix_space {ending : Text} (hending : ' ' ∉ ending) (hword : ' ' ∉ word)
    (h : ending ++ [' '] <+: word ++ ' ' :: rest) : ending = word := by
  induction ending generalizing word with
  | nil =>
    cases word with
    | nil => rfl
    | cons c word =>
      obtain ⟨rfl, -⟩ := List.cons_prefix_cons.mp h
      exact absurd List.mem_cons_self hword
  | cons c ending ih =>
    cases word with
    | nil =>
      obtain ⟨rfl, -⟩ := List.cons_prefix_cons.mp h
      exact absurd List.mem_cons_self hending
    | cons d word =>
      obtain ⟨rfl, htail⟩ := List.cons_prefix_cons.mp h
      rw [List.mem_cons, not_or] at hending hword
      rw [ih hending.2 hword.2 htail]

namespace Rule.Detaches

theorem nil_not_mem (h : rule.Detaches endings) : [] ∉ endings := fun hmem => (h.2.2 [] hmem).1 rfl

/-- A match is an ending that is all that is left of a word. -/
theorem mem_endings_of_match? (h : rule.Detaches endings) (hspace : ' ' ∉ word) {found : List Text}
    (hfound : rule.pattern.match? false (word ++ ' ' :: rest) = some found) : word ∈ endings := by
  obtain ⟨hplain, hchoices, hendings⟩ := h
  obtain ⟨hchoice, hbegins⟩ := hplain.match?_eq_some_iff.mp hfound
  obtain ⟨ending, hending, hflatten, -⟩ := hchoices found hchoice
  rw [hflatten] at hbegins
  exact eq_of_isPrefix_space (hendings ending hending).2.1 hspace hbegins ▸ hending

/-- An ending with its space is a match. -/
theorem exists_match? (h : rule.Detaches endings) {ending : Text} (hending : ending ∈ endings) :
    ∃ found, found.flatten = ending ++ [' '] ∧ rule.expand found = ' ' :: (ending ++ [' ']) ∧
      ∀ rest, rule.pattern.match? false (found.flatten ++ rest) = some found := by
  obtain ⟨hplain, hchoices, hendings⟩ := h
  obtain ⟨-, -, found, hchoice, hflatten⟩ := hendings ending hending
  obtain ⟨other, -, hother, hexpand⟩ := hchoices found hchoice
  obtain rfl := List.append_cancel_right (hflatten.symm.trans hother)
  exact ⟨found, hflatten, hexpand, fun rest =>
    hplain.match?_eq_some_iff.mpr ⟨hchoice, List.prefix_append _ _⟩⟩

/-- One word. -/
theorem scan_word (h : rule.Detaches endings) (hspace : ' ' ∉ word) (rest : Text) :
    rule.scan false 0 (word ++ ' ' :: rest) =
      ended (detach endings word) ++ rule.scan false 0 rest := by
  have hnone (word : Text) (hspace : ' ' ∉ word) (hmem : word ∉ endings) :
      rule.pattern.match? false (word ++ ' ' :: rest) = none := by
    rw [Option.eq_none_iff_forall_ne_some]
    exact fun found hfound => hmem (h.mem_endings_of_match? hspace hfound)
  induction word with
  | nil =>
    have hstay : rule.pattern.match? false (' ' :: rest) = none := hnone [] hspace h.nil_not_mem
    rw [List.nil_append, Rule.scan_cons_of_none hstay]
    rfl
  | cons c word ih =>
    rw [detach]
    split
    · rename_i hmem
      obtain ⟨found, hflatten, hexpand, hfound⟩ := h.exists_match? (List.contains_iff_mem.mp hmem)
      have htext : c :: word ++ ' ' :: rest = found.flatten ++ rest := by
        rw [hflatten, List.append_assoc, List.singleton_append]
      rw [htext, Rule.scan_append_of_some (hfound rest) (by simp [hflatten]), hexpand, ended_cons,
        ended_cons, ended_nil]
      rfl
    · rename_i hmem
      rw [List.contains_iff_mem] at hmem
      have hstay : rule.pattern.match? false (c :: (word ++ ' ' :: rest)) = none :=
        hnone (c :: word) hspace hmem
      rw [List.cons_append, Rule.scan_cons_of_none hstay,
        ih fun hmem => hspace (List.mem_cons_of_mem _ hmem),
        ended_modifyHead (detach_ne_nil h.nil_not_mem word), List.cons_append]

/-- All words. -/
theorem scan_ended (h : rule.Detaches endings) (hspace : ∀ word ∈ words, ' ' ∉ word) :
    rule.scan false 0 (ended words) = ended (words.flatMap (detach endings)) := by
  induction words with
  | nil =>
    have hnone : rule.pattern.match? false [] = none := by
      rw [Option.eq_none_iff_forall_ne_some]
      intro found hfound
      obtain ⟨hchoice, hbegins⟩ := h.1.match?_eq_some_iff.mp hfound
      obtain ⟨ending, -, hflatten, -⟩ := h.2.1 found hchoice
      rw [hflatten] at hbegins
      exact absurd (List.prefix_nil.mp hbegins) (List.append_ne_nil_of_right_ne_nil _ nofun)
    rw [ended_nil, Rule.scan, hnone]
    rfl
  | cons word words ih =>
    obtain ⟨hword, hwords⟩ := List.forall_mem_cons.mp hspace
    rw [ended_cons, h.scan_word hword, ih hwords, List.flatMap_cons, ended_append]

/-- The words that are left have no spaces, either. -/
theorem not_mem_flatMap_detach (h : rule.Detaches endings) (hspace : ∀ word ∈ words, ' ' ∉ word) :
    ∀ word ∈ words.flatMap (detach endings), ' ' ∉ word := by
  intro part hpart hmem
  obtain ⟨word, hword, hpart⟩ := List.mem_flatMap.mp hpart
  refine hspace word hword ?_
  rw [← flatten_detach h.nil_not_mem word]
  exact List.mem_flatten.mpr ⟨part, hpart, hmem⟩

/-- **A rule for clitics on words.** -/
theorem apply_spaced (h : rule.Detaches endings) (hspace : ∀ word ∈ words, ' ' ∉ word) :
    rule.apply (spaced words) = spaced (words.flatMap (detach endings)) := by
  have hall : ∀ word ∈ [] :: words, ' ' ∉ word :=
    List.forall_mem_cons.mpr ⟨List.not_mem_nil, hspace⟩
  rw [Rule.apply, Rule.scan_of_unbound h.1.1, spaced_eq_ended, h.scan_ended hall, spaced_eq_ended]
  rfl

end Rule.Detaches

/-! ### Contractions -/

/-- **Taking words apart.** Every word that is a form, with a space that is free in front of it,
becomes its parts; they take the space behind it. -/
def takeApart (forms : List (List Text)) : (free : Bool) → List Text → List Text
  | _, [] => []
  | false, word :: words => word :: takeApart forms true words
  | true, word :: words =>
    match forms.find? (·.flatten = word) with
    | some parts => parts ++ takeApart forms false words
    | none => word :: takeApart forms true words

/-- **A word stays or becomes its parts.** -/
theorem takeApart_cons (forms : List (List Text)) (free : Bool) (word : Text) (words : List Text) :
    (takeApart forms free (word :: words) = word :: takeApart forms true words ∧
        (free = true → ∀ parts ∈ forms, parts.flatten ≠ word)) ∨
      ∃ parts ∈ forms, parts.flatten = word ∧
        takeApart forms free (word :: words) = parts ++ takeApart forms false words := by
  cases free with
  | false => exact .inl ⟨rfl, nofun⟩
  | true =>
    rw [takeApart]
    cases hfind : forms.find? (·.flatten = word) with
    | none => exact .inl ⟨rfl, fun _ => by simpa using hfind⟩
    | some parts =>
      exact .inr ⟨parts, List.mem_of_find?_eq_some hfind, by simpa using List.find?_some hfind, rfl⟩

/-- Words that are left have been there before, or are parts. -/
theorem mem_takeApart {free : Bool} (h : word ∈ takeApart forms free words) :
    word ∈ words ∨ ∃ parts ∈ forms, word ∈ parts := by
  induction words generalizing free with
  | nil => cases free <;> exact .inl h
  | cons first words ih =>
    rcases takeApart_cons forms free first words with ⟨hstay, -⟩ | ⟨parts, hparts, -, htaken⟩
    · rw [hstay] at h
      rcases List.mem_cons.mp h with rfl | h
      · exact .inl List.mem_cons_self
      · exact (ih h).imp_left (List.mem_cons_of_mem _)
    · rw [htaken] at h
      rcases List.mem_append.mp h with h | h
      · exact .inr ⟨parts, hparts, h⟩
      · exact (ih h).imp_left (List.mem_cons_of_mem _)

/-- **A rule for contractions** takes its forms apart. -/
def Rule.TakesApart (rule : Rule) (forms : List (List Text)) : Prop :=
  rule.pattern.IsPlain ∧
    (∀ found ∈ rule.pattern.choices, ∃ parts ∈ forms,
      found.flatten = spaced [parts.flatten] ∧ rule.expand found = spaced parts) ∧
    ∀ parts ∈ forms, (∀ part ∈ parts, ' ' ∉ part) ∧
      forms.find? (·.flatten = parts.flatten) = some parts ∧
      ∃ found ∈ rule.pattern.choices, found.flatten = spaced [parts.flatten]

instance (rule : Rule) (forms : List (List Text)) : Decidable (rule.TakesApart forms) :=
  inferInstanceAs (Decidable (_ ∧ _ ∧ _))

namespace Rule.TakesApart

/-- A match is a form between two spaces. -/
theorem find?_of_match? (h : rule.TakesApart forms) (hspace : ' ' ∉ word) {found : List Text}
    (hfound : rule.pattern.match? false (' ' :: (word ++ ' ' :: rest)) = some found) :
    ∃ parts, forms.find? (·.flatten = word) = some parts ∧ found.flatten = spaced [word] ∧
      rule.expand found = spaced parts := by
  obtain ⟨hplain, hchoices, hforms⟩ := h
  obtain ⟨hchoice, hbegins⟩ := hplain.match?_eq_some_iff.mp hfound
  obtain ⟨parts, hparts, hflatten, hexpand⟩ := hchoices found hchoice
  obtain ⟨hpartspace, hfind, -⟩ := hforms parts hparts
  have hformspace : ' ' ∉ parts.flatten := fun hmem => by
    obtain ⟨part, hpart, hmem⟩ := List.mem_flatten.mp hmem
    exact hpartspace part hpart hmem
  have hword : parts.flatten = word := by
    rw [hflatten, spaced, ended_cons, ended_nil, List.prefix_cons_inj] at hbegins
    exact eq_of_isPrefix_space hformspace hspace hbegins
  rw [hword] at hfind hflatten
  exact ⟨parts, hfind, hflatten, hexpand⟩

/-- A form between two spaces is a match. -/
theorem exists_match? (h : rule.TakesApart forms) {parts : List Text}
    (hfind : forms.find? (·.flatten = word) = some parts) :
    ∃ found, found.flatten = spaced [word] ∧ rule.expand found = spaced parts ∧
      ∀ rest, rule.pattern.match? false (found.flatten ++ rest) = some found := by
  obtain ⟨hplain, hchoices, hforms⟩ := h
  have hword : parts.flatten = word := by simpa using List.find?_some hfind
  subst hword
  obtain ⟨-, hself, found, hchoice, hflatten⟩ := hforms parts (List.mem_of_find?_eq_some hfind)
  obtain ⟨others, hothers, hsame, hexpand⟩ := hchoices found hchoice
  -- what the match is taken apart into are the first parts of the same word
  have hflat : parts.flatten = others.flatten := by
    have hcons := hflatten.symm.trans hsame
    simpa [spaced] using hcons
  obtain ⟨-, hother, -⟩ := hforms others hothers
  rw [← hflat, hself, Option.some.injEq] at hother
  exact ⟨found, hflatten, hother ▸ hexpand, fun rest =>
    hplain.match?_eq_some_iff.mpr ⟨hchoice, List.prefix_append _ _⟩⟩

/-- A match begins with a space. -/
theorem eq_space_of_match? (h : rule.TakesApart forms) {c : Char} {found : List Text}
    (hfound : rule.pattern.match? false (c :: text) = some found) : c = ' ' := by
  obtain ⟨hchoice, hbegins⟩ := h.1.match?_eq_some_iff.mp hfound
  obtain ⟨parts, -, hflatten, -⟩ := h.2.1 found hchoice
  rw [hflatten, spaced] at hbegins
  exact (List.cons_prefix_cons.mp hbegins).1.symm

/-- Words behind a space that is free, or not. -/
theorem scan_ended (h : rule.TakesApart forms) (hspace : ∀ word ∈ words, ' ' ∉ word) :
    rule.scan false 0 (spaced words) = spaced (takeApart forms true words) ∧
      rule.scan false 0 (ended words) = ended (takeApart forms false words) := by
  induction words with
  | nil =>
    have hnone (text : Text) (hlength : text.length ≤ 1) :
        rule.pattern.match? false text = none := by
      rw [Option.eq_none_iff_forall_ne_some]
      intro found hfound
      obtain ⟨hchoice, hbegins⟩ := h.1.match?_eq_some_iff.mp hfound
      obtain ⟨parts, -, hflatten, -⟩ := h.2.1 found hchoice
      have hle := hbegins.length_le
      simp [hflatten, spaced] at hle
      omega
    have hnil : rule.scan false 0 [] = [] := by rw [Rule.scan, hnone [] (Nat.zero_le _)]
    refine ⟨?_, hnil⟩
    rw [spaced, ended_nil, Rule.scan_cons_of_none (hnone [' '] (Nat.le_refl 1)), hnil]
    rfl
  | cons word words ih =>
    obtain ⟨hword, hwords⟩ := List.forall_mem_cons.mp hspace
    obtain ⟨hfree, htaken⟩ := ih hwords
    -- a word that stays leaves the space behind it free
    have hstay : rule.scan false 0 (ended (word :: words)) =
        ended (word :: takeApart forms true words) := by
      rw [ended_cons, Rule.scan_word (fun _ _ _ => h.eq_space_of_match?) hword, ended_cons]
      exact congrArg (word ++ ·) hfree
    refine ⟨?_, hstay⟩
    rw [takeApart]
    cases hfind : forms.find? (·.flatten = word) with
    | some parts =>
      obtain ⟨found, hflatten, hexpand, hfound⟩ := h.exists_match? hfind
      have htext : spaced (word :: words) = found.flatten ++ ended words := by
        rw [hflatten, spaced, ended_cons, spaced, ended_cons, ended_nil]
        simp
      rw [htext, Rule.scan_append_of_some (hfound _) (by simp [hflatten, spaced]), hexpand, htaken,
        spaced, spaced, ended_append]
      rfl
    | none =>
      have hnone : rule.pattern.match? false (' ' :: (word ++ ' ' :: ended words)) = none := by
        rw [Option.eq_none_iff_forall_ne_some]
        intro found hfound
        obtain ⟨parts, hparts, -⟩ := h.find?_of_match? hword hfound
        rw [hfind] at hparts
        cases hparts
      rw [spaced, ended_cons, Rule.scan_cons_of_none hnone, ← ended_cons, hstay]
      rfl

/-- The words that are left have no spaces, either. -/
theorem not_mem_takeApart (h : rule.TakesApart forms) (hspace : ∀ word ∈ words, ' ' ∉ word)
    {free : Bool} : ∀ word ∈ takeApart forms free words, ' ' ∉ word := by
  intro word hmem
  rcases mem_takeApart hmem with hmem | ⟨parts, hparts, hmem⟩
  · exact hspace word hmem
  · exact (h.2.2 parts hparts).1 word hmem

/-- **A rule for contractions on words.** -/
theorem apply_spaced (h : rule.TakesApart forms) (hspace : ∀ word ∈ words, ' ' ∉ word) :
    rule.apply (spaced words) = spaced (takeApart forms true words) := by
  rw [Rule.apply, Rule.scan_of_unbound h.1.1, (h.scan_ended hspace).1]

end Rule.TakesApart

/-! ### Empty words -/

/-- Spaces become one space. -/
theorem scan_collapseRule (text : Text) :
    collapseRule.scan false 0 (' ' :: text) =
      ' ' :: collapseRule.scan false 0 (text.dropWhile (· = ' ')) := by
  have hmatch : collapseRule.pattern.match? false (' ' :: text) =
      some [[' '], text.takeWhile (· = ' ')] := by
    rw [← contains_space]
    rfl
  have hsplit : [[' '], text.takeWhile (· = ' ')].flatten ++ text.dropWhile (· = ' ') =
      ' ' :: text := by
    simp
  rw [← hsplit] at hmatch ⊢
  exact Rule.scan_append_of_some hmatch (List.cons_ne_nil _ _)

theorem eq_space_of_match?_collapseRule {c : Char} {found : List Text}
    (h : collapseRule.pattern.match? false (c :: text) = some found) : c = ' ' := by
  by_contra hc
  have hclass : ¬ CharClass.contains { members := [' '] } c = true := fun hmem =>
    hc (List.mem_singleton.mp (CharClass.contains_members.mp hmem))
  obtain ⟨-, later, hitems⟩ := Pattern.match?_eq_some h
  have hnone : matchItems collapseRule.pattern.items (c :: text) = none := if_neg hclass
  rw [hnone] at hitems
  cases hitems

/-- **Leftover spaces** go with the empty words. -/
theorem apply_collapseRule_spaced (hspace : ∀ word ∈ words, ' ' ∉ word) :
    collapseRule.apply (spaced words) = spaced (words.filter (· ≠ [])) := by
  rw [Rule.apply, Rule.scan_of_unbound rfl]
  induction words with
  | nil => rfl
  | cons word words ih =>
    obtain ⟨hword, hwords⟩ := List.forall_mem_cons.mp hspace
    cases word with
    | nil =>
      have hsame : collapseRule.scan false 0 (spaced ([] :: words)) =
          collapseRule.scan false 0 (spaced words) := by
        rw [spaced, ended_cons, spaced, List.nil_append, scan_collapseRule, scan_collapseRule,
          List.dropWhile_cons_of_pos (by simp)]
      rw [hsame, ih hwords]
      rfl
    | cons c word =>
      have hc : c ≠ ' ' := fun hc => hword (hc ▸ List.mem_cons_self)
      have hfilter : (((c :: word) :: words).filter (· ≠ [])) =
          (c :: word) :: words.filter (· ≠ []) := List.filter_cons_of_pos (by simp)
      have hrest := ih hwords
      rw [spaced, spaced] at hrest
      rw [hfilter, spaced, ended_cons, scan_collapseRule, List.cons_append,
        List.dropWhile_cons_of_neg (by simpa using hc), ← List.cons_append,
        Rule.scan_word (fun _ _ _ => eq_space_of_match?_collapseRule) hword, hrest, spaced,
        ended_cons]

/-- The space in front goes last. -/
theorem apply_trimRule_spaced (hspace : ∀ word ∈ words, ' ' ∉ word) (hne : [] ∉ words) :
    trimRule.apply (spaced words) = ended words := by
  rw [apply_trimRule, spaced, List.dropWhile_cons_of_pos (by simp)]
  cases words with
  | nil => rfl
  | cons word words =>
    cases word with
    | nil => exact absurd List.mem_cons_self hne
    | cons c word =>
      have hc : c ≠ ' ' := fun hc => hspace _ List.mem_cons_self (hc ▸ List.mem_cons_self)
      rw [ended_cons, List.cons_append, List.dropWhile_cons_of_neg (by simpa using hc)]

/-- **Words with a space after each** are the words of their text, but for the empty ones. -/
theorem spacedWords_ended (hspace : ∀ word ∈ words, ' ' ∉ word) :
    spacedWords (ended words) = words.filter (· ≠ []) := by
  rw [spacedWords, ended, splitOn_flatMap_concat hspace, List.filter_append]
  exact List.append_nil _

/-- They are all of the words when none of them is empty. -/
theorem spacedWords_ended_of_ne_nil (h : ∀ word ∈ words, word ≠ [] ∧ ' ' ∉ word) :
    spacedWords (ended words) = words := by
  rw [spacedWords_ended fun word hword => (h word hword).2, List.filter_eq_self]
  exact fun word hword => decide_eq_true (h word hword).1

/-- The words of a text are not empty and have no spaces. -/
theorem forall_mem_spacedWords (text : Text) : ∀ word ∈ spacedWords text, word ≠ [] ∧ ' ' ∉ word := by
  intro word hword
  rw [spacedWords, List.mem_filter] at hword
  exact ⟨of_decide_eq_true hword.2, not_mem_of_mem_splitOn hword.1⟩

/-! ### All rules in turn -/

/-- The clitics of each rule. -/
def clitics : List (List Text) :=
  [["\x27s", "\x27S", "\x27m", "\x27M", "\x27d", "\x27D"], ["\x27ll"], ["\x27re"], ["\x27ve"],
    ["n\x27t"], ["\x27LL"], ["\x27RE"], ["\x27VE"], ["N\x27T"]].map (·.map String.toList)

/-- The forms of each rule for contractions, by their parts. -/
def contractions : List (List (List Text)) :=
  [[["can", "not"], ["Can", "not"]],
    [["d\x27", "ye"], ["D\x27", "ye"]],
    [["gim", "me"], ["Gim", "me"]],
    [["gon", "na"], ["Gon", "na"]],
    [["got", "ta"], ["Got", "ta"]],
    [["lem", "me"], ["Lem", "me"]],
    [["more", "\x27n"], ["More", "\x27n"]],
    [["\x27t", "is"], ["\x27T", "is"]],
    [["\x27t", "was"], ["\x27T", "was"]],
    [["wan", "na"], ["Wan", "na"]],
    [["wha", "dd", "ya"], ["Wha", "dd", "ya"]],
    [["wha", "t", "cha"], ["Wha", "t", "cha"]]].map (·.map (·.map String.toList))

/-- Words after all clitics have been detached, kind by kind. -/
def detachAll (kinds : List (List Text)) (words : List Text) : List Text :=
  kinds.foldl (fun words endings => words.flatMap (detach endings)) words

/-- Words after all contractions have been taken apart, kind by kind. -/
def takeAllApart (kinds : List (List (List Text))) (words : List Text) : List Text :=
  kinds.foldl (fun words forms => takeApart forms true words) words

theorem cliticRules_detach : List.Forall₂ Rule.Detaches cliticRules clitics := by decide

theorem wordRules_takeApart : List.Forall₂ Rule.TakesApart wordRules contractions := by decide

/-- The rules for clitics on words. -/
theorem applyRules_detaches {rules : List Rule} {kinds : List (List Text)}
    (h : List.Forall₂ Rule.Detaches rules kinds) (hspace : ∀ word ∈ words, ' ' ∉ word) :
    applyRules rules (spaced words) = spaced (detachAll kinds words) ∧
      ∀ word ∈ detachAll kinds words, ' ' ∉ word := by
  induction h generalizing words with
  | nil => exact ⟨rfl, hspace⟩
  | cons hrule _ ih =>
    rw [applyRules_cons, hrule.apply_spaced hspace]
    exact ih (hrule.not_mem_flatMap_detach hspace)

/-- The rules for contractions on words. -/
theorem applyRules_takesApart {rules : List Rule} {kinds : List (List (List Text))}
    (h : List.Forall₂ Rule.TakesApart rules kinds) (hspace : ∀ word ∈ words, ' ' ∉ word) :
    applyRules rules (spaced words) = spaced (takeAllApart kinds words) ∧
      ∀ word ∈ takeAllApart kinds words, ' ' ∉ word := by
  induction h generalizing words with
  | nil => exact ⟨rfl, hspace⟩
  | cons hrule _ ih =>
    rw [applyRules_cons, hrule.apply_spaced hspace]
    exact ih (hrule.not_mem_takeApart hspace)

/-- What the words of a text become. -/
def takenApart (words : List Text) : List Text :=
  (takeAllApart contractions (detachAll clitics words)).filter (· ≠ [])

/-- **The rules behind the closing single quotes** on words. -/
theorem applyRules_spaced (hspace : ∀ word ∈ words, ' ' ∉ word) :
    applyRules (cliticRules ++ (wordRules ++ [collapseRule, trimRule])) (spaced words) =
        ended (takenApart words) ∧
      spacedWords (ended (takenApart words)) = takenApart words := by
  obtain ⟨hclitics, hdetached⟩ := applyRules_detaches cliticRules_detach hspace
  obtain ⟨hwords, htaken⟩ := applyRules_takesApart wordRules_takeApart hdetached
  have hleft : ∀ word ∈ takenApart words, word ≠ [] ∧ ' ' ∉ word := by
    intro word hmem
    rw [takenApart, List.mem_filter] at hmem
    exact ⟨of_decide_eq_true hmem.2, htaken word hmem.1⟩
  refine ⟨?_, spacedWords_ended_of_ne_nil hleft⟩
  rw [applyRules_append, hclitics, applyRules_append, hwords, applyRules_cons, applyRules_cons,
    applyRules_nil, apply_collapseRule_spaced htaken]
  exact apply_trimRule_spaced (fun word hword => (hleft word hword).2)
    fun hmem => (hleft [] hmem).1 rfl

/-! ### The text between two spaces -/

/-- The rules for a space at either end. -/
def padEndRule : Rule := { pattern := { toEnd := true }, replacement := [put " "] }
def padStartRule : Rule := { pattern := { fromStart := true }, replacement := [put " "] }

theorem spacingRules_eq : spacingRules = [replace "--" " -- ", padEndRule, padStartRule] := rfl

theorem apply_padEndRule (text : Text) : padEndRule.apply text = text ++ [' '] := by
  have hscan (text : Text) : padEndRule.scan false 0 text = text ++ [' '] := by
    induction text with
    | nil => rfl
    | cons c text ih => exact congrArg (c :: ·) ih
  rw [Rule.apply, Rule.scan_of_unbound rfl, hscan]

theorem apply_padStartRule (text : Text) : padStartRule.apply text = ' ' :: text := by
  cases text with
  | nil => rfl
  | cons c text =>
    have hrest : padStartRule.scan false 0 text = text :=
      (Rule.rewrites_scan padStartRule false text).eq_of_fromStart rfl rfl
    exact congrArg (' ' :: c :: ·) hrest

/-- A text that begins and ends with a space is words between spaces. -/
theorem exists_spaced (hhead : text.head? = some ' ') (hlast : text.getLast? = some ' ') :
    ∃ words, (∀ word ∈ words, ' ' ∉ word) ∧ text = spaced words := by
  obtain ⟨rest, rfl⟩ := List.head?_eq_some_iff.mp hhead
  have hrest : rest ≠ [] → rest.getLast? = some ' ' := fun hne => by
    rwa [List.getLast?_cons_of_ne_nil hne] at hlast
  obtain ⟨words, hspace, rfl⟩ := exists_ended hrest
  exact ⟨words, hspace, rfl⟩

/-- **Every text is taken apart word by word**, and is left as words with a space after each. -/
theorem exists_rewrite_eq_ended (text : Text) :
    ∃ words, rewrite text = ended (takenApart words) ∧
      spacedWords (rewrite text) = takenApart words := by
  rw [rewrite, tokenization_eq, spacingRules_eq, contractionRules_eq]
  generalize applyRules preprocessing text = text
  rw [applyRules_append, applyRules_append, applyRules_append, applyRules_append, applyRules_append,
    applyRules_cons closingQuoteRule]
  generalize applyRules (bracketNames.map fun name => Rule.ofChar name.1 name.2)
    (applyRules punctuationRules (applyRules [openingRule, innerRule] text)) = named
  simp only [applyRules_cons, applyRules_nil, apply_padEndRule, apply_padStartRule,
    Rule.apply_ofChar]
  generalize (replace "--" " -- ").apply named = text
  -- the spaces at either end stay there while the closing quotation marks are turned
  have hclosed : ((' ' :: (text ++ [' '])).flatMap fun d =>
      if d = '\x22' then " \x27\x27 ".toList else [d]).getLast? = some ' ' := by
    rw [← List.cons_append, List.flatMap_append]
    exact List.getLast?_concat
  obtain ⟨words, hspace, hwords⟩ := exists_spaced
    ((spreads_closingQuoteRule _).head?_eq rfl) ((spreads_closingQuoteRule _).getLast?_eq hclosed)
  obtain ⟨happly, hspaced⟩ := applyRules_spaced hspace
  rw [hwords, happly]
  exact ⟨words, rfl, hspaced⟩

theorem exists_takenApart (text : Text) :
    ∃ words, spacedWords (rewrite text) = takenApart words := by
  obtain ⟨words, -, hwords⟩ := exists_rewrite_eq_ended text
  exact ⟨words, hwords⟩

end Corpus.English

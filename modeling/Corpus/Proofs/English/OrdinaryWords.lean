import Corpus.Proofs.English.TakingApart
import Mathlib.Data.List.Infix

/-!
# Ordinary words

A word is ordinary when no rule of the two tables has anything to look for in it. Ordinary words
with a space between neighbours pass through rewriting as they are, whatever their script, except
that the period at the end of the last one becomes a word of its own.

* A text of ordinary words is unmarked: the rules before the clitics find nothing in it
  (`applyRules_of_unmarked`), but for the one for the last period. This one has one place to match
  at, `match?_lastPeriodRule_iff`.
* The rules for clitics and contractions leave words alone that have no apostrophe and are no
  contraction (`takenApart_eq_filter`).
-/

namespace Corpus.English

variable {text word last : Text} {words : List Text} {rule : Rule} {rules : List Rule}

/-! ### Unmarked texts -/

/-- The characters that rules of the tokenization look for, but for the period and the hyphen. -/
def markChars : Text := ",;:@#$%&?!()[]\x7b\x7d<>\x22\x27".toList

/-- **An unmarked text** has none of these characters, no two hyphens and no three dots next to each
other. -/
structure Unmarked (text : Text) : Prop where
  chars : ∀ c ∈ markChars, c ∉ text
  hyphens : ¬ "--".toList <:+: text
  dots : ¬ "...".toList <:+: text

instance (text : Text) : Decidable (Unmarked text) :=
  decidable_of_iff
    (markChars.all (· ∉ text) = true ∧ ¬ "--".toList <:+: text ∧ ¬ "...".toList <:+: text)
    ⟨fun ⟨chars, hyphens, dots⟩ =>
      ⟨fun c hc => of_decide_eq_true (List.all_eq_true.mp chars c hc), hyphens, dots⟩,
    fun ⟨chars, hyphens, dots⟩ =>
      ⟨List.all_eq_true.mpr fun c hc => decide_eq_true (chars c hc), hyphens, dots⟩⟩

/-- **A rule for marks**: all its choices are marked. -/
def Rule.IsForMarks (rule : Rule) : Prop :=
  (∀ item ∈ rule.pattern.items, item.IsPlain) ∧ ∀ found ∈ rule.pattern.choices,
    found.flatten.any (· ∈ markChars) = true ∨ "--".toList <:+: found.flatten ∨
      "...".toList <:+: found.flatten

instance (rule : Rule) : Decidable rule.IsForMarks := inferInstanceAs (Decidable (_ ∧ _))

/-- Rules for marks leave an unmarked text alone. -/
theorem applyRules_of_unmarked (h : Unmarked text) (hrules : ∀ rule ∈ rules, rule.IsForMarks) :
    applyRules rules text = text := by
  refine applyRules_eq_self fun rule hrule => ?_
  obtain ⟨hitems, hchoices⟩ := hrules rule hrule
  refine Rule.apply_eq_self_of_choices hitems fun found hfound hwithin => ?_
  rcases hchoices found hfound with hany | hhyphens | hdots
  · obtain ⟨c, hmem, hc⟩ := List.any_eq_true.mp hany
    exact absurd (hwithin.subset hmem) (h.chars c (of_decide_eq_true hc))
  · exact absurd (hhyphens.trans hwithin) h.hyphens
  · exact absurd (hdots.trans hwithin) h.dots

/-- A text that is spread out stays unmarked. -/
theorem Unmarked.spread {new : Text} (h : Unmarked text) (hspread : Spread text new) :
    Unmarked new := by
  have hspace : ' ' ∉ markChars := by decide
  refine ⟨fun c hc hmem => h.chars c hc ?_,
    fun hwithin => h.hyphens (hspread.isInfix (by decide) hwithin),
    fun hwithin => h.dots (hspread.isInfix (by decide) hwithin)⟩
  have hne : ' ' ∉ [c] := fun hmem => hspace (List.mem_singleton.mp hmem ▸ hc)
  exact (List.singleton_infix_iff c text).mp
    (hspread.isInfix hne ((List.singleton_infix_iff c new).mpr hmem))

/-! ### The last period -/

/-- The characters that may stand behind the last period: closing marks and spaces. -/
def closingChars : Text := "])\x7d>\x22\x27 ".toList

/-- **A text without such a character at its end.** -/
def EndsPlain (text : Text) : Prop := ∀ d, text.getLast? = some d → d ∉ closingChars

theorem endsPlain_concat_period (text : Text) : EndsPlain (text ++ ['.']) := by
  intro d hlast
  rw [List.getLast?_concat] at hlast
  obtain rfl : '.' = d := Option.some.inj hlast
  decide

/-- **The place of the last period.** The rule finds a period that is last and stands behind
something else. -/
theorem match?_lastPeriodRule_iff {atStart : Bool} {found : List Text} (hend : EndsPlain text) :
    lastPeriodRule.pattern.match? atStart text = some found ↔
      ∃ c, c ≠ '.' ∧ text = [c, '.'] ∧ found = [[c], ['.'], [], []] := by
  constructor
  · intro h
    obtain ⟨c, closers, spaces, hc, hclosers, hspaces, rfl, htext⟩ := matches_lastPeriodRule h
    have htext : text = [c, '.'] ++ (closers ++ spaces) := by rw [htext]; simp
    have hnil : closers ++ spaces = [] := by
      by_contra hne
      have hlast : text.getLast? = some ((closers ++ spaces).getLast hne) := by
        rw [htext, List.getLast?_append_of_ne_nil _ hne, List.getLast?_eq_some_getLast hne]
      refine hend _ hlast ?_
      rcases List.mem_append.mp (List.getLast_mem hne) with hmem | hmem
      · exact List.mem_append_left [' '] (hclosers _ hmem)
      · rw [hspaces _ hmem]
        decide
    obtain ⟨rfl, rfl⟩ := List.append_eq_nil_iff.mp hnil
    exact ⟨c, hc, htext, rfl⟩
  · rintro ⟨c, hc, rfl, rfl⟩
    have hclass : CharClass.contains { members := ['.'], negated := true } c = true := by
      simp [CharClass.contains, hc]
    have hitems : matchItems lastPeriodRule.pattern.items [c, '.'] =
        some ([[c], ['.'], [], []], []) := by
      change (if CharClass.contains { members := ['.'], negated := true } c then _ else _) = _
      rw [if_pos hclass]
      rfl
    rw [Pattern.match?, hitems]
    rfl

/-- A period that is last and stands behind something else is a word of its own. -/
theorem apply_lastPeriodRule_append {c : Char} (hc : c ≠ '.') (front : Text) :
    lastPeriodRule.apply (front ++ [c, '.']) = front ++ [c] ++ " . ".toList := by
  rw [Rule.apply, Rule.scan_of_unbound rfl]
  induction front with
  | nil =>
    have hfound : lastPeriodRule.pattern.match? false [c, '.'] = some [[c], ['.'], [], []] :=
      (match?_lastPeriodRule_iff (endsPlain_concat_period [c])).mpr ⟨c, hc, rfl, rfl⟩
    have hscan : lastPeriodRule.scan false 0 ([[c], ['.'], [], []].flatten ++ []) =
        lastPeriodRule.expand [[c], ['.'], [], []] ++ lastPeriodRule.scan false 0 [] :=
      Rule.scan_append_of_some hfound (List.cons_ne_nil c ['.'])
    exact hscan
  | cons d front ih =>
    have hend : EndsPlain (d :: (front ++ [c, '.'])) := by
      have hplain := endsPlain_concat_period (d :: (front ++ [c]))
      rwa [List.cons_append, List.append_assoc] at hplain
    have hnone : lastPeriodRule.pattern.match? false (d :: (front ++ [c, '.'])) = none := by
      rw [Option.eq_none_iff_forall_ne_some]
      intro found hfound
      obtain ⟨c, -, htext, -⟩ := (match?_lastPeriodRule_iff hend).mp hfound
      simpa using congrArg List.length htext
    rw [List.cons_append, Rule.scan_cons_of_none hnone, ih]
    rfl

/-- Without such a period a text stays as it is. -/
theorem apply_lastPeriodRule_eq_self (hend : EndsPlain text)
    (h : ∀ front c, text = front ++ [c, '.'] → c = '.') : lastPeriodRule.apply text = text := by
  refine Rule.apply_eq_self fun atStart rest found hrest hfound => ?_
  obtain ⟨front, rfl⟩ := hrest
  have hendrest : EndsPlain rest := by
    intro d hlast
    refine hend d ?_
    rw [List.getLast?_append, hlast]
    rfl
  obtain ⟨c, hc, rfl, -⟩ := (match?_lastPeriodRule_iff hendrest).mp hfound
  exact hc (h front c rfl)

/-- **A period at the end** stays where it is after nothing or another period. -/
theorem apply_lastPeriodRule_concat (text : Text) :
    lastPeriodRule.apply (text ++ ['.']) =
      if text = [] ∨ text.getLast? = some '.' then text ++ ['.'] else text ++ " . ".toList := by
  have hend := endsPlain_concat_period text
  rcases List.eq_nil_or_concat text with rfl | ⟨front, c, rfl⟩
  · rw [if_pos (.inl rfl)]
    refine apply_lastPeriodRule_eq_self hend fun front c htext => ?_
    simpa using congrArg List.length htext
  · rw [List.concat_eq_append, List.append_assoc] at *
    by_cases hc : c = '.'
    · rw [if_pos (.inr (by simp [hc]))]
      refine apply_lastPeriodRule_eq_self hend fun other d htext => ?_
      have hsame : [c] ++ ['.'] = [d, '.'] := List.append_inj_right' htext rfl
      exact (List.cons.inj hsame).1 ▸ hc
    · rw [if_neg (by simp [hc])]
      exact apply_lastPeriodRule_append hc front

/-! ### Words that stay whole -/

/-- The contractions without an apostrophe. -/
def contractedWords : List Text :=
  ["cannot", "Cannot", "gimme", "Gimme", "gonna", "Gonna", "gotta", "Gotta", "lemme", "Lemme", "wanna",
    "Wanna", "whaddya", "Whaddya", "whatcha", "Whatcha"].map String.toList

/-- Clitics that have an apostrophe are not in words that have none. -/
theorem detachAll_eq_self {kinds : List (List Text)}
    (hkinds : ∀ endings ∈ kinds, ∀ ending ∈ endings, '\x27' ∈ ending)
    (h : ∀ word ∈ words, '\x27' ∉ word) : detachAll kinds words = words := by
  induction kinds with
  | nil => rfl
  | cons endings kinds ih =>
    obtain ⟨hendings, hkinds⟩ := List.forall_mem_cons.mp hkinds
    have hne : [] ∉ endings := fun hmem => List.not_mem_nil (hendings [] hmem)
    have hstay : words.flatMap (detach endings) = words := by
      conv_rhs => rw [← List.flatMap_singleton' words]
      refine List.flatMap_congr fun word hword => ?_
      rcases detach_cases hne word with ⟨hstay, -⟩ | ⟨front, ending, hending, rfl, -⟩
      · exact hstay
      · exact absurd (List.mem_append_right _ (hendings ending hending)) (h _ hword)
    rw [detachAll, List.foldl_cons, hstay]
    exact ih hkinds

/-- Words that are no forms are not taken apart. -/
theorem takeApart_eq_self {forms : List (List Text)}
    (h : ∀ word ∈ words, ∀ parts ∈ forms, parts.flatten ≠ word) (free : Bool) :
    takeApart forms free words = words := by
  induction words generalizing free with
  | nil => cases free <;> rfl
  | cons word words ih =>
    obtain ⟨hword, hwords⟩ := List.forall_mem_cons.mp h
    rcases takeApart_cons forms free word words with ⟨hstay, -⟩ | ⟨parts, hparts, hform, -⟩
    · rw [hstay, ih hwords]
    · exact absurd hform (hword parts hparts)

theorem takeAllApart_eq_self {kinds : List (List (List Text))}
    (h : ∀ word ∈ words, ∀ forms ∈ kinds, ∀ parts ∈ forms, parts.flatten ≠ word) :
    takeAllApart kinds words = words := by
  induction kinds with
  | nil => rfl
  | cons forms kinds ih =>
    rw [takeAllApart, List.foldl_cons,
      takeApart_eq_self fun word hword => h word hword forms List.mem_cons_self]
    exact ih fun word hword forms hmem => h word hword forms (List.mem_cons_of_mem _ hmem)

/-- **Words stay whole** that have no apostrophe and are no contractions. -/
theorem takenApart_eq_filter (h : ∀ word ∈ words, '\x27' ∉ word ∧ word ∉ contractedWords) :
    takenApart words = words.filter (· ≠ []) := by
  have hclitics : ∀ endings ∈ clitics, ∀ ending ∈ endings, '\x27' ∈ ending := by decide
  have hcontractions : ∀ forms ∈ contractions, ∀ parts ∈ forms,
      '\x27' ∈ parts.flatten ∨ parts.flatten ∈ contractedWords := by
    decide
  rw [takenApart, detachAll_eq_self hclitics fun word hword => (h word hword).1,
    takeAllApart_eq_self fun word hword forms hforms parts hparts hform => ?_]
  rcases hcontractions forms hforms parts hparts with hmem | hmem
  · exact (h word hword).1 (hform ▸ hmem)
  · exact (h word hword).2 (hform ▸ hmem)

/-! ### Rewriting -/

/-- The rules for marks: before the last period, and behind it up to the spaces at either end. -/
def earlyRules : List Rule := tokenization.take 4
def lateRules : List Rule := (tokenization.drop 5).take 9

theorem tokenization_eq_earlyRules :
    tokenization = earlyRules ++ (lastPeriodRule :: (lateRules ++ (padEndRule :: padStartRule ::
      Rule.ofChar '\x22' " \x27\x27 ".toList :: closingQuoteRule ::
        (cliticRules ++ (wordRules ++ [collapseRule, trimRule]))))) := rfl

theorem earlyRules_isForMarks : ∀ rule ∈ earlyRules, rule.IsForMarks := by decide

theorem lateRules_isForMarks : ∀ rule ∈ lateRules, rule.IsForMarks := by decide

/-- A text between two spaces is its pieces between spaces. -/
theorem spaced_splitOn (text : Text) : spaced (List.splitOn ' ' text) = ' ' :: (text ++ [' ']) := by
  induction text using separator_induction ' ' with
  | whole text hspace =>
    rw [List.splitOn_eq_singleton hspace, spaced, ended_cons, ended_nil]
  | cut front rest hfront ih =>
    rw [spaced, List.cons.injEq] at ih
    rw [List.splitOn_append_cons_self_of_not_mem hfront, spaced, ended_cons, ih.2, List.append_assoc,
      List.cons_append]

/-- **An unmarked text** is its words, when the last period has become one of them. -/
theorem applyRules_tokenization (h : Unmarked text)
    (hwords : ∀ word ∈ spacedWords (lastPeriodRule.apply text), word ∉ contractedWords) :
    applyRules tokenization text = ended (spacedWords (lastPeriodRule.apply text)) := by
  have hperiod : Unmarked (lastPeriodRule.apply text) := h.spread (spreads_lastPeriodRule text)
  rw [tokenization_eq_earlyRules, applyRules_append, applyRules_of_unmarked h earlyRules_isForMarks,
    applyRules_cons]
  generalize lastPeriodRule.apply text = text at hwords hperiod
  have hpadded : Unmarked (' ' :: (text ++ [' '])) := by
    refine hperiod.spread (.space ?_)
    have hspread := (Spread.refl text).append (.space .nil)
    rwa [List.append_nil] at hspread
  have hquote : (Rule.ofChar '\x22' " \x27\x27 ".toList).apply (' ' :: (text ++ [' '])) =
      ' ' :: (text ++ [' ']) :=
    Rule.apply_of_absent List.mem_cons_self
      (List.forall_mem_singleton.mpr (hpadded.chars '\x22' (by decide)))
  have hclosing : closingQuoteRule.apply (' ' :: (text ++ [' '])) = ' ' :: (text ++ [' ']) := by
    have hitem : .one { members := ['\x27'] } ∈ closingQuoteRule.pattern.items :=
      List.mem_cons_of_mem _ List.mem_cons_self
    exact Rule.apply_of_absent hitem
      (List.forall_mem_singleton.mpr (hpadded.chars '\x27' (by decide)))
  have hpieces : ∀ word ∈ List.splitOn ' ' text, '\x27' ∉ word ∧ word ∉ contractedWords := by
    intro word hword
    refine ⟨fun hmem => hperiod.chars '\x27' (by decide) (Text.mem_of_mem_splitOn hword hmem), ?_⟩
    by_cases hnil : word = []
    · rw [hnil]
      decide
    · exact hwords word (List.mem_filter.mpr ⟨hword, decide_eq_true hnil⟩)
  have hspace : ∀ word ∈ List.splitOn ' ' text, ' ' ∉ word := fun _ => not_mem_of_mem_splitOn
  rw [applyRules_append, applyRules_of_unmarked hperiod lateRules_isForMarks, applyRules_cons,
    applyRules_cons, applyRules_cons, applyRules_cons, apply_padEndRule, apply_padStartRule, hquote,
    hclosing, ← spaced_splitOn, (applyRules_spaced hspace).1, takenApart_eq_filter hpieces]
  rfl

/-! ### Texts of ordinary words -/

/-- **An ordinary word.** Preprocessing finds nothing in it, and neither does the tokenization look
for anything in it but a period at its end. -/
structure IsOrdinary (word : Text) : Prop where
  ne_nil : word ≠ []
  no_space : ' ' ∉ word
  unfound : ∀ rule ∈ preprocessing, ∀ found ∈ rule.pattern.choices, found.flatten ≠ [] →
    ¬ found.flatten <:+: word
  unmarked : Unmarked word

instance (word : Text) : Decidable (IsOrdinary word) :=
  decidable_of_iff (word ≠ [] ∧ ' ' ∉ word ∧
      (∀ rule ∈ preprocessing, ∀ found ∈ rule.pattern.choices, found.flatten ≠ [] →
        ¬ found.flatten <:+: word) ∧ Unmarked word)
    ⟨fun ⟨ne_nil, no_space, unfound, unmarked⟩ => ⟨ne_nil, no_space, unfound, unmarked⟩,
      fun ⟨ne_nil, no_space, unfound, unmarked⟩ => ⟨ne_nil, no_space, unfound, unmarked⟩⟩

/-- A word without one period at its end. -/
def withoutPeriod (word : Text) : Text := if word.getLast? = some '.' then word.dropLast else word

/-- **What the last word becomes.** The period at its end is a word of its own, if there is
something before it and that is no period. -/
def lastWords (word : Text) : List Text :=
  if word.getLast? = some '.' ∧ word.dropLast ≠ [] ∧ word.dropLast.getLast? ≠ some '.' then
    [word.dropLast, ['.']]
  else [word]

/-- What stands in a text of words without a space stands in a word. -/
theorem exists_word_of_isInfix {stretch : Text} (hne : words ≠ [])
    (hwords : ∀ word ∈ words, ' ' ∉ word) (hspace : ' ' ∉ stretch)
    (hwithin : stretch <:+: wordText words) : ∃ word ∈ words, stretch <:+: word := by
  obtain ⟨piece, hpiece, hin⟩ := exists_mem_splitOn_of_isInfix hspace hwithin
  rw [wordText, Text.splitOn_joined hne hwords] at hpiece
  exact ⟨piece, hpiece, hin⟩

/-- Preprocessing leaves ordinary words alone. -/
theorem applyRules_preprocessing (hne : words ≠ []) (h : ∀ word ∈ words, IsOrdinary word) :
    applyRules preprocessing (wordText words) = wordText words := by
  have htable : ∀ rule ∈ preprocessing, (∀ item ∈ rule.pattern.items, item.IsPlain) ∧
      ∀ found ∈ rule.pattern.choices, ' ' ∉ found.flatten ∧
        (found.flatten = [] → rule.expand found = []) := by
    decide
  refine applyRules_eq_self fun rule hrule => ?_
  obtain ⟨hitems, hchoices⟩ := htable rule hrule
  refine Rule.apply_eq_self_of_choices hitems fun found hfound hwithin => ?_
  obtain ⟨hspace, hempty⟩ := hchoices found hfound
  by_cases hnil : found.flatten = []
  · rw [hempty hnil, hnil]
  · obtain ⟨word, hword, hin⟩ :=
      exists_word_of_isInfix hne (fun word hword => (h word hword).no_space) hspace hwithin
    exact absurd hin ((h word hword).unfound rule hrule found hfound hnil)

/-- A text of ordinary words is unmarked. -/
theorem unmarked_wordText (hne : words ≠ []) (h : ∀ word ∈ words, IsOrdinary word) :
    Unmarked (wordText words) := by
  have hspace : ∀ word ∈ words, ' ' ∉ word := fun word hword => (h word hword).no_space
  refine ⟨fun c hc hmem => ?_, fun hwithin => ?_, fun hwithin => ?_⟩
  · have hmark : c ≠ ' ' := by
      rintro rfl
      exact absurd hc (by decide)
    obtain ⟨word, hword, hmem⟩ := (Text.mem_of_mem_joined hmem).resolve_left hmark
    exact (h word hword).unmarked.chars c hc hmem
  · obtain ⟨word, hword, hin⟩ := exists_word_of_isInfix hne hspace (by decide) hwithin
    exact (h word hword).unmarked.hyphens hin
  · obtain ⟨word, hword, hin⟩ := exists_word_of_isInfix hne hspace (by decide) hwithin
    exact (h word hword).unmarked.dots hin

theorem filter_ordinary (h : ∀ word ∈ words, IsOrdinary word) : words.filter (· ≠ []) = words :=
  List.filter_eq_self.mpr fun word hword => decide_eq_true (h word hword).ne_nil

/-- Ordinary words are the words of their text. -/
theorem spacedWords_ended_append (hwords : ∀ word ∈ words, IsOrdinary word)
    (hlast : IsOrdinary last) :
    spacedWords (ended words ++ last) = words ++ [last] := by
  have hall : ∀ word ∈ words ++ [last], IsOrdinary word :=
    List.forall_mem_append.mpr ⟨hwords, List.forall_mem_singleton.mpr hlast⟩
  have hne : words ++ [last] ≠ [] :=
    List.append_ne_nil_of_right_ne_nil words (List.cons_ne_nil last [])
  have hsplit := Text.splitOn_joined hne fun word hword => (hall word hword).no_space
  rw [← wordText_concat, spacedWords, wordText, hsplit, filter_ordinary hall]

/-- So are ordinary words with a period between spaces. -/
theorem spacedWords_ended_period (hwords : ∀ word ∈ words, IsOrdinary word) {stem : Text}
    (hstem : ' ' ∉ stem) :
    spacedWords (ended words ++ stem ++ " . ".toList) = words ++ [stem, ['.']].filter (· ≠ []) := by
  have htext : ended words ++ stem ++ " . ".toList = ended (words ++ [stem, ['.']]) := by simp
  have hall : ∀ word ∈ words ++ [stem, ['.']], ' ' ∉ word :=
    List.forall_mem_append.mpr
      ⟨fun word hword => (hwords word hword).no_space, List.forall_mem_cons.mpr ⟨hstem, by decide⟩⟩
  rw [htext, spacedWords_ended hall, List.filter_append, filter_ordinary hwords]

/-- An ordinary word ends plain. -/
theorem IsOrdinary.endsPlain (h : IsOrdinary last) (front : Text) : EndsPlain (front ++ last) := by
  have htable : closingChars.all (fun d => d = ' ' ∨ d ∈ markChars) = true := by decide
  intro d hd hmem
  rw [List.getLast?_append_of_ne_nil _ h.ne_nil] at hd
  rcases of_decide_eq_true (List.all_eq_true.mp htable d hmem) with rfl | hmark
  · exact h.no_space (List.mem_of_getLast? hd)
  · exact h.unmarked.chars d hmark (List.mem_of_getLast? hd)

/-- **The last period of ordinary words.** -/
theorem spacedWords_lastPeriodRule (hwords : ∀ word ∈ words, IsOrdinary word)
    (hlast : IsOrdinary last) :
    spacedWords (lastPeriodRule.apply (wordText (words ++ [last]))) = words ++ lastWords last := by
  have hstay := spacedWords_ended_append hwords hlast
  rw [wordText_concat]
  by_cases hperiod : last.getLast? = some '.'
  · obtain ⟨stem, rfl⟩ := List.getLast?_eq_some_iff.mp hperiod
    have hsplit := spacedWords_ended_period hwords fun hmem =>
      hlast.no_space (List.mem_append_left ['.'] hmem)
    rw [← List.append_assoc] at hstay ⊢
    rw [apply_lastPeriodRule_concat, lastWords, List.dropLast_concat]
    by_cases hnil : stem = []
    · -- a period alone is a word in either case
      rw [if_neg fun hboth : _ ∧ stem ≠ [] ∧ _ => hboth.2.1 hnil]
      split
      · exact hstay
      · rw [hsplit, hnil]
        rfl
    · have hne : ended words ++ stem ≠ [] := List.append_ne_nil_of_right_ne_nil _ hnil
      rw [List.getLast?_append_of_ne_nil _ hnil]
      by_cases hdots : stem.getLast? = some '.'
      · rw [if_pos (.inr hdots), hstay, if_neg fun hboth => hboth.2.2 hdots]
      · rw [if_neg fun hor => hor.elim hne hdots, hsplit,
          if_pos ⟨List.getLast?_concat, hnil, hdots⟩]
        exact congrArg (words ++ ·) (List.filter_cons_of_pos (decide_eq_true hnil))
  · rw [lastWords, if_neg fun hboth => hperiod hboth.1,
      apply_lastPeriodRule_eq_self (hlast.endsPlain _) fun front c htext => ?_, hstay]
    have hdot := congrArg List.getLast? htext
    rw [List.getLast?_append_of_ne_nil _ hlast.ne_nil,
      List.getLast?_append_of_ne_nil _ (List.cons_ne_nil _ _)] at hdot
    exact absurd hdot hperiod

/-- The words of a text are the words of their own text. -/
theorem spacedWords_ended_spacedWords (text : Text) :
    spacedWords (ended (spacedWords text)) = spacedWords text :=
  spacedWords_ended_of_ne_nil (forall_mem_spacedWords text)

/-- No word of the last one is a contraction. -/
theorem not_mem_lastWords (h : withoutPeriod last ∉ contractedWords) :
    ∀ word ∈ lastWords last, word ∉ contractedWords := by
  have hperiod : ['.'] ∉ contractedWords := by decide
  have hwhole : ∀ word ∈ contractedWords, withoutPeriod word = word := by decide
  intro word hword
  rw [lastWords] at hword
  split at hword
  · rename_i hsplit
    rw [withoutPeriod, if_pos hsplit.1] at h
    rcases List.mem_cons.mp hword with rfl | hword
    · exact h
    · exact List.mem_singleton.mp hword ▸ hperiod
  · obtain rfl := List.mem_singleton.mp hword
    exact fun hmem => h ((hwhole word hmem).symm ▸ hmem)

/-- **Ordinary words pass through**, and only the last period becomes a word of its own. -/
theorem rewrite_ordinary (h : ∀ word ∈ words ++ [last], IsOrdinary word)
    (hwords : ∀ word ∈ words, word ∉ contractedWords)
    (hlast : withoutPeriod last ∉ contractedWords) :
    rewrite (wordText (words ++ [last])) = ended (words ++ lastWords last) ∧
      spacedWords (rewrite (wordText (words ++ [last]))) = words ++ lastWords last := by
  have hne : words ++ [last] ≠ [] :=
    List.append_ne_nil_of_right_ne_nil words (List.cons_ne_nil last [])
  obtain ⟨hordinary, hordinarylast⟩ := List.forall_mem_append.mp h
  have hperiod := spacedWords_lastPeriodRule hordinary (List.forall_mem_singleton.mp hordinarylast)
  have hwhole : ∀ word ∈ words ++ lastWords last, word ∉ contractedWords :=
    List.forall_mem_append.mpr ⟨hwords, not_mem_lastWords hlast⟩
  rw [rewrite, applyRules_preprocessing hne h,
    applyRules_tokenization (unmarked_wordText hne h) (hperiod.symm ▸ hwhole), hperiod]
  exact ⟨rfl, hperiod ▸ spacedWords_ended_spacedWords _⟩

/-- Abbreviations, hyphens and letters of any kind stay, and the last period is split off. -/
theorem rewrite_ordinary_abbreviations :
    rewrite "e.g. \u00e9t\u00e9 a-b etc.".toList = "e.g. \u00e9t\u00e9 a-b etc . ".toList ∧
      spacedWords (rewrite "e.g. \u00e9t\u00e9 a-b etc.".toList) =
        ["e.g.", "\u00e9t\u00e9", "a-b", "etc", "."].map String.toList := by
  have htext : wordText (["e.g.", "\u00e9t\u00e9", "a-b"].map String.toList ++ ["etc.".toList]) =
      "e.g. \u00e9t\u00e9 a-b etc.".toList := by
    decide
  have hlast : lastWords "etc.".toList = ["etc", "."].map String.toList := by decide
  have hwords := @rewrite_ordinary "etc.".toList (["e.g.", "\u00e9t\u00e9", "a-b"].map String.toList)
    (by decide) (by decide) (by decide)
  rw [htext, hlast] at hwords
  exact hwords

end Corpus.English

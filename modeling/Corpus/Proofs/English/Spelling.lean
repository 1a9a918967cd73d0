import Corpus.English.Rules
import Corpus.Proofs.English.Content

/-!
# What rewriting spells out

English rewriting changes the content of a text in three ways only: brackets get names, and quotation
marks a direction. This is `spelled`, which decides the direction of a quotation mark by the text
before it. All other rules move spaces.

* The rules are read backwards. The last ones keep the content; the one for closing quotation marks
  and those for brackets each put a text in the place of a character; so the whole table after the
  opening quotation marks is one reading of a text, `named`.
* The first two rules of the table turn the opening quotation marks. This is the only place where a
  rule looks at what stands before a character.
-/

namespace Corpus.English

/-! ### Spelling out -/

/-- **An opening quotation mark** stands at the front, after a space, an opening bracket or a less-than
sign, or second after a quotation mark. -/
def OpensQuotation (before : Text) : Prop :=
  before = [] ∨ before = ['\x22'] ∨ before.getLast? = some ' ' ∨ before.getLast? = some '(' ∨
    before.getLast? = some '<'

instance (before : Text) : Decidable (OpensQuotation before) :=
  inferInstanceAs (Decidable (_ ∨ _ ∨ _ ∨ _ ∨ _))

/-- A character spelled out. -/
def spelledChar (opens : Bool) (c : Char) : Text :=
  if c = '(' then "-LRB-".toList
  else if c = ')' then "-RRB-".toList
  else if c = '\x22' then if opens then "``".toList else "\x27\x27".toList
  else [c]

/-- **A text spelled out** that stands after another one: brackets by their names, quotation marks by
their directions. -/
def spelled (before : Text) : Text → Text
  | [] => []
  | c :: text => spelledChar (OpensQuotation before) c ++ spelled (before ++ [c]) text

/-! ### The table after the opening quotation marks -/

/-- The rules before the brackets. -/
def punctuationRules : List Rule := (tokenization.drop 2).take 5

/-- The rules between the brackets and the closing quotation marks. -/
def spacingRules : List Rule := (tokenization.drop 13).take 3

/-- The rules after the closing quotation marks. -/
def contractionRules : List Rule := tokenization.drop 17

/-- The brackets with their names, in the order of their rules. -/
def bracketNames : List (Char × Text) :=
  [('(', "-LRB-".toList), (')', "-RRB-".toList), (']', "-LSB-".toList), (']', "-RSB-".toList),
   ('\x7b', "-LCB-".toList), ('\x7d', "-RCB-".toList)]

/-- The rules for opening quotation marks: at the start, and inside a text. -/
def openingRule : Rule :=
  { pattern := { fromStart := true, items := word "\x22" }, replacement := [put "`` "] }
def innerRule : Rule :=
  { pattern := { items := oneOf " ([\x7b<" :: word "\x22" }, replacement := [.item 0, put " `` "] }

theorem tokenization_eq :
    tokenization = [openingRule, innerRule] ++ (punctuationRules ++
      (bracketNames.map (fun name => Rule.ofChar name.1 name.2) ++
        (spacingRules ++ ([Rule.ofChar '\x22' " \x27\x27 ".toList] ++ contractionRules)))) := rfl

theorem punctuationRules_keep : ∀ rule ∈ punctuationRules, rule.marks = rule.pattern.marks := by
  decide

theorem spacingRules_keep : ∀ rule ∈ spacingRules, rule.marks = rule.pattern.marks := by
  decide

theorem contractionRules_keep : ∀ rule ∈ contractionRules, rule.marks = rule.pattern.marks := by
  decide

@[simp] theorem applyRules_nil (text : Text) : applyRules [] text = text := rfl

@[simp] theorem applyRules_cons (rule : Rule) (rules : List Rule) (text : Text) :
    applyRules (rule :: rules) text = applyRules rules (rule.apply text) := rfl

theorem applyRules_append (first second : List Rule) (text : Text) :
    applyRules (first ++ second) text = applyRules second (applyRules first text) :=
  List.foldl_append

/-- Rules that each leave a text alone do so in turn. -/
theorem applyRules_eq_self {rules : List Rule} {text : Text}
    (h : ∀ rule ∈ rules, rule.apply text = text) : applyRules rules text = text := by
  induction rules with
  | nil => rfl
  | cons rule rules ih =>
    obtain ⟨hrule, hrules⟩ := List.forall_mem_cons.mp h
    rw [applyRules_cons, hrule, ih hrules]

/-- A reading before characters have been replaced by texts in turn. -/
def renamed : List (Char × Text) → (Char → Text) → Char → Text
  | [], g, d => g d
  | (c, new) :: names, g, d => if d = c then new.flatMap (renamed names g) else renamed names g d

theorem flatMap_applyRules_ofChar (names : List (Char × Text)) (g : Char → Text) (text : Text) :
    (applyRules (names.map fun name => Rule.ofChar name.1 name.2) text).flatMap g =
      text.flatMap (renamed names g) := by
  induction names generalizing text with
  | nil => rfl
  | cons name names ih =>
    obtain ⟨c, new⟩ := name
    exact (ih _).trans (Rule.flatMap_apply_ofChar (renamed names g) text)

/-- Other characters read as before. -/
theorem renamed_of_not_mem {names : List (Char × Text)} {g : Char → Text} {d : Char}
    (h : d ∉ names.map Prod.fst) : renamed names g d = g d := by
  induction names with
  | nil => rfl
  | cons name names ih =>
    obtain ⟨c, new⟩ := name
    rw [List.map_cons, List.mem_cons, not_or] at h
    rw [renamed, if_neg h.1, ih h.2]

/-- The content of a text once the closing quotation marks have been turned. -/
def closed : Char → Text := renamed [('\x22', " \x27\x27 ".toList)] visible

/-- The content of a text once the brackets have been named, too. -/
def named : Char → Text := renamed bracketNames closed

/-- The brackets that preprocessing removes. -/
def otherBrackets : Text := ['[', ']', '\x7b', '\x7d']

/-- **A character as it is named.** -/
theorem named_eq {c : Char} (h : c ∉ otherBrackets) : named c = content (spelledChar false c) := by
  by_cases hopen : c = '('
  · rw [hopen]
    decide
  by_cases hclose : c = ')'
  · rw [hclose]
    decide
  by_cases hquote : c = '\x22'
  · rw [hquote]
    decide
  have hbracket : c ∉ bracketNames.map Prod.fst := by
    simp only [otherBrackets, List.mem_cons, List.not_mem_nil, or_false, not_or] at h
    simp only [bracketNames, List.map_cons, List.map_nil, List.mem_cons, List.not_mem_nil, or_false,
      not_or]
    exact ⟨hopen, hclose, h.2.1, h.2.1, h.2.2⟩
  have hspelled : spelledChar false c = [c] := by
    rw [spelledChar, if_neg hopen, if_neg hclose, if_neg hquote]
  rw [hspelled, content_eq_flatMap, List.flatMap_singleton, named, renamed_of_not_mem hbracket,
    closed, renamed_of_not_mem (mt List.mem_singleton.mp hquote)]

/-- **The table after the opening quotation marks** is the one reading. -/
theorem content_applyRules_tokenization (text : Text) :
    content (applyRules tokenization text) =
      (applyRules [openingRule, innerRule] text).flatMap named := by
  have hpunctuation : ∀ rule ∈ punctuationRules, rule.KeepsContent :=
    fun rule hrule => keepsContent_of_marks (punctuationRules_keep rule hrule)
  have hspacing : ∀ rule ∈ spacingRules, rule.KeepsContent :=
    fun rule hrule => keepsContent_of_marks (spacingRules_keep rule hrule)
  have hcontraction : ∀ rule ∈ contractionRules, rule.KeepsContent :=
    fun rule hrule => keepsContent_of_marks (contractionRules_keep rule hrule)
  have hclosing := flatMap_applyRules_ofChar [('\x22', " \x27\x27 ".toList)] visible
  rw [tokenization_eq, content_eq_flatMap]
  simp only [applyRules_append]
  rw [flatMap_applyRules hcontraction rfl]
  refine (hclosing _).trans ?_
  rw [flatMap_applyRules hspacing (by decide), flatMap_applyRules_ofChar,
    flatMap_applyRules hpunctuation (by decide)]
  rfl

/-! ### Opening quotation marks -/

/-- After at least one character, only the last one counts. -/
theorem opensQuotation_concat {before : Text} {c : Char} (h : before ≠ [] ∨ c ≠ '\x22') :
    OpensQuotation (before ++ [c]) ↔ c = ' ' ∨ c = '(' ∨ c = '<' := by
  have hquote : before ++ [c] ≠ ['\x22'] := by
    intro hsame
    obtain ⟨rfl, hc⟩ := List.append_eq_singleton_iff.mp hsame |>.resolve_right (by simp)
    exact h.elim (fun hne => hne rfl) fun hne => hne (List.cons.inj hc).1
  rw [OpensQuotation, or_iff_right (List.append_ne_nil_of_right_ne_nil _ (List.cons_ne_nil _ _)),
    or_iff_right hquote, List.getLast?_concat]
  simp only [Option.some.injEq]

/-- A text is spelled out alike after texts that agree on quotation marks. -/
theorem spelled_congr {before other : Text} (hne : before ≠ []) (hne' : other ≠ [])
    (h : OpensQuotation before ↔ OpensQuotation other) (text : Text) :
    spelled before text = spelled other text := by
  induction text generalizing before other with
  | nil => rfl
  | cons c text ih =>
    have hrest : OpensQuotation (before ++ [c]) ↔ OpensQuotation (other ++ [c]) := by
      rw [opensQuotation_concat (.inl hne), opensQuotation_concat (.inl hne')]
    rw [spelled, spelled, decide_eq_decide.mpr h, ih (by simp) (by simp) hrest]

/-- The characters before which the rule inside a text opens a quotation. -/
def openingChars : Text := [' ', '(', '[', '\x7b', '<']

/-- The rule inside a text matches a quotation mark after one of its characters. -/
theorem match?_innerRule {atStart : Bool} {text : Text} {found : List Text} :
    innerRule.pattern.match? atStart text = some found ↔
      ∃ c rest, c ∈ openingChars ∧ text = c :: '\x22' :: rest ∧ found = [[c], ['\x22']] := by
  have hitems : innerRule.pattern.items =
      [.one { members := openingChars }, .one { members := ['\x22'] }] := rfl
  constructor
  · intro h
    obtain ⟨-, rest, hfound⟩ := Pattern.match?_eq_some h
    rw [hitems] at hfound
    obtain ⟨hmatches, rfl⟩ := matchItems_eq_some hfound
    obtain ⟨first, others, ⟨c, hc, rfl⟩, hothers, rfl⟩ := List.forall₂_cons_left_iff.mp hmatches
    obtain ⟨second, none, ⟨d, hd, rfl⟩, hnone, rfl⟩ := List.forall₂_cons_left_iff.mp hothers
    obtain rfl : none = [] := List.forall₂_nil_left_iff.mp hnone
    obtain rfl := List.mem_singleton.mp (CharClass.contains_members.mp hd)
    exact ⟨c, rest, CharClass.contains_members.mp hc, rfl, rfl⟩
  · rintro ⟨c, rest, hc, rfl, rfl⟩
    have hc : CharClass.contains { members := openingChars } c = true :=
      CharClass.contains_members.mpr hc
    have hquote : CharClass.contains { members := ['\x22'] } '\x22' = true := rfl
    rw [Pattern.match?, hitems]
    simp only [matchItems, hc, hquote, if_true, Option.map_some]
    rfl

/-- Two of them have been removed. -/
theorem mem_openingChars_iff {c : Char} (h : c ∉ otherBrackets) :
    c ∈ openingChars ↔ c = ' ' ∨ c = '(' ∨ c = '<' := by
  simp only [otherBrackets, openingChars, List.mem_cons, List.not_mem_nil, or_false, not_or] at h ⊢
  simp only [h.1, h.2.2.1, false_or]

/-- **Quotation marks inside a text.** With the first character no opening quotation mark, the rule
turns those that are. -/
theorem flatMap_named_inner {atStart : Bool} {text new before : Text}
    (h : innerRule.Rewrites atStart text new) (hother : ∀ c ∈ text, c ∉ otherBrackets)
    (hfirst : text.head? = some '\x22' → ¬ OpensQuotation before) :
    new.flatMap named = content (spelled before text) := by
  induction h generalizing before with
  | stop => rfl
  | last hfound =>
    obtain ⟨c, rest, -, htext, -⟩ := match?_innerRule.mp hfound
    cases htext
  | @keep atStart c text new hnone _ ih =>
    obtain ⟨hc, htext⟩ := List.forall_mem_cons.mp hother
    have hopens : before ≠ [] ∨ c ≠ '\x22' := by
      by_contra hboth
      obtain ⟨rfl, rfl⟩ := by simpa only [not_or, not_not] using hboth
      exact hfirst rfl (.inl rfl)
    have hchar : content (spelledChar (OpensQuotation before) c) = named c := by
      rw [named_eq hc]
      by_cases hquote : c = '\x22'
      · rw [hquote] at hfirst ⊢
        rw [decide_eq_false (hfirst rfl)]
      · simp only [spelledChar, if_neg hquote]
    rw [List.flatMap_cons, spelled, content_append, hchar, ih htext fun hhead hquotation => ?_]
    -- the quotation mark after this character would have been a match
    obtain ⟨rest, rfl⟩ : ∃ rest, text = '\x22' :: rest := List.head?_eq_some_iff.mp hhead
    have hmem := (mem_openingChars_iff hc).mpr ((opensQuotation_concat hopens).mp hquotation)
    rw [match?_innerRule.mpr ⟨c, rest, hmem, rfl, rfl⟩] at hnone
    cases hnone
  | pass hfound hempty =>
    obtain ⟨c, rest, -, -, rfl⟩ := match?_innerRule.mp hfound
    cases hempty
  | @put _ _ rest new hfound _ _ ih =>
    obtain ⟨c, _, hc, -, rfl⟩ := match?_innerRule.mp hfound
    obtain ⟨hcother, hquoteother⟩ := List.forall_mem_cons.mp hother
    obtain ⟨-, hrest⟩ := List.forall_mem_cons.mp hquoteother
    have hopening := (mem_openingChars_iff hcother).mp hc
    have hne : c ≠ '\x22' := by
      rintro rfl
      exact absurd hopening (by decide)
    have hchar : content (spelledChar (OpensQuotation before) c) = named c := by
      rw [named_eq hcother]
      simp only [spelledChar, if_neg hne]
    have hquote : content (spelledChar (OpensQuotation (before ++ [c])) '\x22') = "``".toList := by
      rw [decide_eq_true ((opensQuotation_concat (.inr hne)).mpr hopening)]
      rfl
    have hlater : ¬ OpensQuotation (before ++ [c] ++ ['\x22']) := by
      rw [opensQuotation_concat (.inl (by simp))]
      decide
    have hwritten : (innerRule.expand [[c], ['\x22']]).flatMap named = named c ++ "``".toList := by
      have hmark : " `` ".toList.flatMap named = "``".toList := by decide
      rw [← hmark, ← List.flatMap_cons]
      rfl
    calc (innerRule.expand [[c], ['\x22']] ++ new).flatMap named
        = named c ++ "``".toList ++ new.flatMap named := by rw [List.flatMap_append, hwritten]
      _ = named c ++ "``".toList ++ content (spelled (before ++ [c] ++ ['\x22']) rest) := by
        rw [ih hrest fun _ => hlater]
      _ = content (spelled before (c :: '\x22' :: rest)) := by
        rw [spelled, spelled, content_append, content_append, hchar, hquote, List.append_assoc]

/-- A quotation mark at the start is turned by the first rule, which changes nothing else. -/
theorem apply_openingRule_cons (c : Char) (text : Text) :
    openingRule.apply (c :: text) = if c = '\x22' then "`` ".toList ++ text else c :: text := by
  have hrest : openingRule.scan false 0 text = text :=
    (Rule.rewrites_scan openingRule false text).eq_of_fromStart rfl rfl
  have hitems : openingRule.pattern.items = [.one { members := ['\x22'] }] := rfl
  by_cases hc : c = '\x22'
  · have hmatch : openingRule.pattern.match? true ('\x22' :: text) = some [['\x22']] := rfl
    rw [hc, if_pos rfl, Rule.apply, Rule.scan, hmatch]
    change openingRule.expand [['\x22']] ++ openingRule.scan false 0 text = _
    rw [hrest]
    rfl
  · have hmatch : openingRule.pattern.match? true (c :: text) = none := by
      rw [Pattern.match?, hitems]
      simp [matchItems, hc]
    rw [if_neg hc, Rule.apply, Rule.scan, hmatch]
    simp only [hrest]

/-- **Opening quotation marks.** -/
theorem flatMap_named_opening {text : Text} (hother : ∀ c ∈ text, c ∉ otherBrackets) :
    (applyRules [openingRule, innerRule] text).flatMap named = content (spelled [] text) := by
  change (innerRule.apply (openingRule.apply text)).flatMap named = _
  cases text with
  | nil => rfl
  | cons c text =>
    obtain ⟨hc, htext⟩ := List.forall_mem_cons.mp hother
    rw [apply_openingRule_cons]
    by_cases hquote : c = '\x22'
    · rw [if_pos hquote, hquote]
      have hmark : ∀ d ∈ "`` ".toList ++ text, d ∉ otherBrackets :=
        List.forall_mem_cons.mpr ⟨by decide, List.forall_mem_cons.mpr ⟨by decide,
          List.forall_mem_cons.mpr ⟨by decide, htext⟩⟩⟩
      have hinner : (innerRule.apply ("`` ".toList ++ text)).flatMap named =
          content (spelled [] ("`` ".toList ++ text)) :=
        flatMap_named_inner (Rule.rewrites_apply _ _) hmark nofun
      have hafter : spelled "`` ".toList text = spelled ['\x22'] text :=
        spelled_congr (by decide) (by decide) (by decide) text
      calc (innerRule.apply ("`` ".toList ++ text)).flatMap named
          = content (spelled [] ("`` ".toList ++ text)) := hinner
        _ = "``".toList ++ content (spelled "`` ".toList text) := rfl
        _ = "``".toList ++ content (spelled ['\x22'] text) := by rw [hafter]
        _ = content (spelled [] ('\x22' :: text)) := rfl
    · rw [if_neg hquote]
      refine flatMap_named_inner (Rule.rewrites_apply _ _) hother fun hhead => ?_
      exact absurd (Option.some.inj hhead) hquote

/-! ### Rewriting -/

/-- Preprocessing removes all other brackets. -/
theorem not_mem_otherBrackets_preprocessing (text : Text) :
    ∀ c ∈ applyRules preprocessing text, c ∉ otherBrackets := by
  intro c hmem hc
  simp only [otherBrackets, List.mem_cons, List.not_mem_nil, or_false] at hc
  rcases hc with rfl | rfl | rfl | rfl
  · have hrule : Rule.ofChar '[' ['('] ∈ preprocessing := List.mem_of_getElem? (i := 12) rfl
    exact not_mem_applyRules hrule (by decide) text hmem
  · have hrule : Rule.ofChar ']' [')'] ∈ preprocessing := List.mem_of_getElem? (i := 13) rfl
    exact not_mem_applyRules hrule (by decide) text hmem
  · have hrule : Rule.ofChar '\x7b' ['('] ∈ preprocessing := List.mem_of_getElem? (i := 14) rfl
    exact not_mem_applyRules hrule (by decide) text hmem
  · have hrule : Rule.ofChar '\x7d' [')'] ∈ preprocessing := List.mem_of_getElem? (i := 15) rfl
    exact not_mem_applyRules hrule (by decide) text hmem

/-- **English rewriting keeps the content** of the preprocessed text as it is spelled out: it loses
nothing, repeats nothing and keeps the order. -/
theorem content_rewrite (text : Text) :
    content (rewrite text) = content (spelled [] (applyRules preprocessing text)) := by
  rw [rewrite, content_applyRules_tokenization]
  exact flatMap_named_opening (not_mem_otherBrackets_preprocessing text)

example : spelled [] "\x22\x22Hi\x22 (\x22so\x22)".toList =
    "````Hi\x27\x27 -LRB-``so\x27\x27-RRB-".toList := by
  decide

end Corpus.English

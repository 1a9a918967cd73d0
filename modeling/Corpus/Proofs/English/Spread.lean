import Corpus.Proofs.English.Plain
import Corpus.Proofs.English.Spelling
import Corpus.Proofs.Text.Stretches

/-!
# Rules that spread a text out

Most rules of the tokenization put spaces into a text and do nothing else. Whatever stands without a
space in the new text then stood so in the old one (`Spread.isInfix`); what such a rule has taken
apart no later one joins again.

Whether a rule spreads every text out can be seen from its choices (`spreads_of_choices`). Three
rules of the table are no plain ones: the one for closing single quotes, the one for the last
period, which makes one space of the spaces at the end, and the one that does so with all other
spaces.
-/

namespace Corpus.English

/-- **Spreading out.** The second text is the first one with spaces put in; spaces that stand next
to each other may have become one. -/
inductive Spread : Text → Text → Prop
  | nil : Spread [] []
  | keep (c : Char) {old new : Text} : Spread old new → Spread (c :: old) (c :: new)
  | space {old new : Text} : Spread old new → Spread old (' ' :: new)
  | merge {old new : Text} : Spread (' ' :: old) new → Spread (' ' :: ' ' :: old) new

namespace Spread

variable {old new other : Text}

theorem refl (text : Text) : Spread text text := by
  induction text with
  | nil => exact .nil
  | cons c text ih => exact .keep c ih

theorem append {old' new' : Text} (h : Spread old new) (h' : Spread old' new') :
    Spread (old ++ old') (new ++ new') := by
  induction h with
  | nil => exact h'
  | keep c _ ih => exact .keep c ih
  | space _ ih => exact .space ih
  | merge _ ih => exact .merge ih

/-- Spaces become one space. -/
theorem of_spaces {spaces : Text} (h : ∀ c ∈ spaces, c = ' ') : Spread spaces [' '] := by
  induction spaces with
  | nil => exact .space .nil
  | cons c spaces ih =>
    obtain ⟨rfl, hspaces⟩ := List.forall_mem_cons.mp h
    cases spaces with
    | nil => exact refl _
    | cons d spaces =>
      obtain ⟨rfl, -⟩ := List.forall_mem_cons.mp hspaces
      exact .merge (ih hspaces)

/-- What stands at the front of the new text without a space stood at the front of the old one. -/
theorem isPrefix (h : Spread old new) {stretch : Text} (hspace : ' ' ∉ stretch)
    (hbegins : stretch <+: new) : stretch <+: old := by
  induction h generalizing stretch with
  | nil => exact hbegins
  | keep c _ ih =>
    rcases List.prefix_cons_iff.mp hbegins with rfl | ⟨tail, rfl, htail⟩
    · exact List.nil_prefix
    · exact (List.prefix_cons_inj c).mpr (ih (fun hmem => hspace (List.mem_cons_of_mem _ hmem)) htail)
  | space _ _ =>
    rcases List.prefix_cons_iff.mp hbegins with rfl | ⟨tail, rfl, -⟩
    · exact List.nil_prefix
    · exact absurd List.mem_cons_self hspace
  | merge _ ih =>
    rcases List.prefix_cons_iff.mp (ih hspace hbegins) with rfl | ⟨tail, rfl, -⟩
    · exact List.nil_prefix
    · exact absurd List.mem_cons_self hspace

/-- **Nothing is joined.** What stands in the new text without a space stood so in the old one. -/
theorem isInfix (h : Spread old new) {stretch : Text} (hspace : ' ' ∉ stretch)
    (hwithin : stretch <:+: new) : stretch <:+: old := by
  induction h with
  | nil => exact hwithin
  | keep c h ih =>
    rcases List.infix_cons_iff.mp hwithin with hbegins | hwithin
    · exact ((keep c h).isPrefix hspace hbegins).isInfix
    · exact List.infix_cons_iff.mpr (.inr (ih hwithin))
  | space h ih =>
    rcases List.infix_cons_iff.mp hwithin with hbegins | hwithin
    · exact ((space h).isPrefix hspace hbegins).isInfix
    · exact ih hwithin
  | merge _ ih => exact List.infix_cons_iff.mpr (.inr (ih hwithin))

/-- A space at the front stays there. -/
theorem head?_eq (h : Spread old new) (hspace : old.head? = some ' ') : new.head? = some ' ' := by
  induction h with
  | nil => cases hspace
  | keep _ _ _ => exact hspace
  | space _ _ => rfl
  | merge _ ih => exact ih rfl

/-- Nothing but spaces comes of nothing. -/
theorem eq_space_of_mem (h : Spread [] new) : ∀ c ∈ new, c = ' ' := by
  generalize hold : ([] : Text) = old at h
  induction h with
  | nil => exact List.forall_mem_nil _
  | keep c _ _ => cases hold
  | space _ ih => exact List.forall_mem_cons.mpr ⟨rfl, ih hold⟩
  | merge _ _ => cases hold

/-- A space at the end stays there. -/
theorem getLast?_eq (h : Spread old new) (hspace : old.getLast? = some ' ') :
    new.getLast? = some ' ' := by
  induction h with
  | nil => cases hspace
  | @keep c old new h ih =>
    rw [List.getLast?_cons, Option.some.injEq] at hspace ⊢
    cases hlast : old.getLast? with
    | none =>
      rw [hlast] at hspace
      obtain rfl := List.getLast?_eq_none_iff.mp hlast
      cases hnew : new.getLast? with
      | none => exact hspace
      | some d => exact h.eq_space_of_mem d (List.mem_of_getLast? hnew)
    | some d =>
      rw [hlast] at hspace
      rw [ih (hlast.trans (congrArg some hspace))]
      rfl
  | space _ ih => rw [List.getLast?_cons, ih hspace, Option.getD_some]
  | merge _ ih => exact ih (List.getLast?_cons_cons ▸ hspace)

end Spread

/-! ### Rules -/

/-- **A rule that spreads** every text out. -/
def Rule.Spreads (rule : Rule) : Prop := ∀ text, Spread text (rule.apply text)

/-- A rewriting spreads a text out when it spreads out every match. -/
theorem Rule.Rewrites.spread {rule : Rule} {atStart : Bool} {text new : Text}
    (h : rule.Rewrites atStart text new)
    (hmatch : ∀ atStart text found, rule.pattern.match? atStart text = some found →
      Spread found.flatten (rule.expand found)) : Spread text new := by
  induction h with
  | stop => exact .nil
  | last hfound =>
    have hempty := List.prefix_nil.mp (Pattern.forall₂_of_match? hfound).2
    exact hempty ▸ hmatch _ _ _ hfound
  | keep _ _ ih => exact .keep _ ih
  | pass hfound hempty _ ih =>
    have hspaces := hmatch _ _ _ hfound
    rw [hempty] at hspaces
    exact hspaces.append (.keep _ ih)
  | put hfound _ _ ih => exact (hmatch _ _ _ hfound).append ih

theorem Rule.spreads_of_match? {rule : Rule}
    (h : ∀ atStart text found, rule.pattern.match? atStart text = some found →
      Spread found.flatten (rule.expand found)) : rule.Spreads :=
  fun text => (rule.rewrites_apply text).spread h

/-- Whether a text comes of another by putting spaces in. -/
def comesOfSpaces : (old new : Text) → Bool
  | [], [] => true
  | _ :: _, [] => false
  | [], d :: new => d = ' ' && comesOfSpaces [] new
  | c :: old, d :: new =>
    if c = d then comesOfSpaces old new else d = ' ' && comesOfSpaces (c :: old) new

theorem spread_of_comesOfSpaces {old new : Text} (h : comesOfSpaces old new = true) :
    Spread old new := by
  induction new generalizing old with
  | nil =>
    cases old with
    | nil => exact .nil
    | cons c old => cases h
  | cons d new ih =>
    cases old with
    | nil =>
      obtain ⟨hd, hnew⟩ := Bool.and_eq_true_iff.mp h
      exact of_decide_eq_true hd ▸ .space (ih hnew)
    | cons c old =>
      rw [comesOfSpaces] at h
      split at h
      · rename_i heq
        exact heq ▸ .keep c (ih h)
      · obtain ⟨hd, hnew⟩ := Bool.and_eq_true_iff.mp h
        exact of_decide_eq_true hd ▸ .space (ih hnew)

/-- **A rule of plain items** spreads every text out when it does so with its choices. -/
theorem Rule.spreads_of_choices {rule : Rule} (hitems : ∀ item ∈ rule.pattern.items, item.IsPlain)
    (h : ∀ found ∈ rule.pattern.choices, comesOfSpaces found.flatten (rule.expand found) = true) :
    rule.Spreads :=
  Rule.spreads_of_match? fun _ _ _ hfound =>
    spread_of_comesOfSpaces (h _ (Pattern.mem_choices_of_match? hitems hfound).1)

/-- Rules that spread texts out do so one after another. -/
theorem isInfix_of_isInfix_applyRules {rules : List Rule} (h : ∀ rule ∈ rules, rule.Spreads)
    {stretch text : Text} (hspace : ' ' ∉ stretch) (hwithin : stretch <:+: applyRules rules text) :
    stretch <:+: text := by
  induction rules generalizing text with
  | nil => exact hwithin
  | cons rule rules ih =>
    obtain ⟨hrule, hrules⟩ := List.forall_mem_cons.mp h
    exact (hrule text).isInfix hspace (ih hrules hwithin)

/-! ### The table -/

/-- The rule for the last period. -/
def lastPeriodRule : Rule :=
  { pattern :=
      { items := [noneOf ".", oneOf ".", manyOf "])\x7d>\x22\x27", manyOf " "], toEnd := true }
    replacement := [.item 0, put " ", .item 1, .item 2, put " "] }

/-- The rule for closing single quotes. -/
def closingQuoteRule : Rule :=
  { pattern := { items := noneOf "\x27" :: word "\x27 " }, replacement := [.item 0, put " \x27 "] }

/-- The rules for clitics: endings that are tokens. -/
def cliticRules : List Rule := (tokenization.drop 18).take 9

/-- The rules for words that are more than one token. -/
def wordRules : List Rule := (tokenization.drop 27).take 12

/-- The rules for the spaces that are left over: between tokens, and in front. -/
def collapseRule : Rule :=
  { pattern := { items := word " " ++ [manyOf " "] }, replacement := [put " "] }
def trimRule : Rule :=
  { pattern := { fromStart := true, items := [manyOf " "] }, replacement := [] }

theorem punctuationRules_eq :
    punctuationRules = [replace "..." " ... ", isolate ",;:@#$%&", lastPeriodRule, isolate "?!",
      isolate "][()\x7b\x7d<>"] := rfl

theorem contractionRules_eq :
    contractionRules =
      closingQuoteRule :: (cliticRules ++ (wordRules ++ [collapseRule, trimRule])) := rfl

/-- A match of the rule for the last period reaches to the end. -/
theorem matches_lastPeriodRule {atStart : Bool} {text : Text} {found : List Text}
    (h : lastPeriodRule.pattern.match? atStart text = some found) :
    ∃ c closers spaces, c ≠ '.' ∧ (∀ d ∈ closers, d ∈ "])\x7d>\x22\x27".toList) ∧
      (∀ d ∈ spaces, d = ' ') ∧ found = [[c], ['.'], closers, spaces] ∧ text = found.flatten := by
  have htext := Pattern.eq_flatten_of_match? h rfl
  obtain ⟨hmatches, -⟩ := Pattern.forall₂_of_match? h
  obtain _ | ⟨⟨c, hc, rfl⟩, hperiod⟩ := hmatches
  obtain _ | ⟨⟨d, hd, rfl⟩, hmany⟩ := hperiod
  obtain _ | @⟨_, closers, _, _, hclosers, hend⟩ := hmany
  obtain _ | @⟨_, spaces, _, _, hspaces, hnil⟩ := hend
  obtain rfl := List.forall₂_nil_left_iff.mp hnil
  obtain rfl := List.mem_singleton.mp (CharClass.contains_members.mp hd)
  refine ⟨c, closers, spaces, ?_, fun d hd => CharClass.contains_members.mp (hclosers d hd),
    fun d hd => List.mem_singleton.mp (CharClass.contains_members.mp (hspaces d hd)), rfl, htext⟩
  rintro rfl
  cases hc

theorem spreads_lastPeriodRule : lastPeriodRule.Spreads := by
  refine Rule.spreads_of_match? fun atStart text found hfound => ?_
  obtain ⟨c, closers, spaces, -, -, hspaces, rfl, -⟩ := matches_lastPeriodRule hfound
  have hend : Spread (closers ++ (spaces ++ [])) (closers ++ ([' '] ++ [])) :=
    (Spread.refl closers).append ((Spread.of_spaces hspaces).append .nil)
  exact .keep c (.space (.keep '.' hend))

theorem spreads_closingQuoteRule : closingQuoteRule.Spreads := by
  refine Rule.spreads_of_match? fun atStart text found hfound => ?_
  obtain ⟨hmatches, -⟩ := Pattern.forall₂_of_match? hfound
  obtain _ | ⟨⟨c, -, rfl⟩, hquote⟩ := hmatches
  obtain _ | ⟨⟨d, hd, rfl⟩, hspace⟩ := hquote
  obtain _ | ⟨⟨e, he, rfl⟩, hnil⟩ := hspace
  obtain rfl := List.forall₂_nil_left_iff.mp hnil
  obtain rfl := List.mem_singleton.mp (CharClass.contains_members.mp hd)
  obtain rfl := List.mem_singleton.mp (CharClass.contains_members.mp he)
  exact .keep c (.space (.refl _))

theorem spreads_collapseRule : collapseRule.Spreads := by
  refine Rule.spreads_of_match? fun atStart text found hfound => ?_
  obtain ⟨hmatches, -⟩ := Pattern.forall₂_of_match? hfound
  obtain _ | ⟨⟨c, hc, rfl⟩, hmany⟩ := hmatches
  obtain _ | @⟨_, spaces, _, _, hspaces, hnil⟩ := hmany
  obtain rfl := List.forall₂_nil_left_iff.mp hnil
  refine Spread.of_spaces fun d hd => ?_
  rw [List.flatten_cons, List.flatten_cons, List.flatten_nil, List.append_nil,
    List.singleton_append] at hd
  rcases List.mem_cons.mp hd with rfl | hd
  · exact List.mem_singleton.mp (CharClass.contains_members.mp hc)
  · exact List.mem_singleton.mp (CharClass.contains_members.mp (hspaces d hd))

/-- The rules before the brackets get names. -/
theorem spreads_punctuationRules : ∀ rule ∈ punctuationRules, rule.Spreads := by
  have hplain : ∀ rule ∈ [replace "..." " ... ", isolate ",;:@#$%&", isolate "?!",
      isolate "][()\x7b\x7d<>"],
      (∀ item ∈ rule.pattern.items, item.IsPlain) ∧
        ∀ found ∈ rule.pattern.choices, comesOfSpaces found.flatten (rule.expand found) = true := by
    decide
  rw [punctuationRules_eq]
  simp only [List.forall_mem_cons] at hplain ⊢
  obtain ⟨hdots, hmarks, hstops, hbrackets, hnil⟩ := hplain
  exact ⟨Rule.spreads_of_choices hdots.1 hdots.2, Rule.spreads_of_choices hmarks.1 hmarks.2,
    spreads_lastPeriodRule, Rule.spreads_of_choices hstops.1 hstops.2,
    Rule.spreads_of_choices hbrackets.1 hbrackets.2, List.forall_mem_nil _⟩

/-- The rules between the brackets and the closing quotation marks. -/
theorem spreads_spacingRules : ∀ rule ∈ spacingRules, rule.Spreads := by
  have hplain : ∀ rule ∈ spacingRules, (∀ item ∈ rule.pattern.items, item.IsPlain) ∧
      ∀ found ∈ rule.pattern.choices, comesOfSpaces found.flatten (rule.expand found) = true := by
    decide
  exact fun rule hrule => Rule.spreads_of_choices (hplain rule hrule).1 (hplain rule hrule).2

/-- The rules that take words apart. -/
theorem spreads_takingApart : ∀ rule ∈ cliticRules ++ wordRules, rule.Spreads := by
  have hplain : ∀ rule ∈ cliticRules ++ wordRules, (∀ item ∈ rule.pattern.items, item.IsPlain) ∧
      ∀ found ∈ rule.pattern.choices, comesOfSpaces found.flatten (rule.expand found) = true := by
    decide
  exact fun rule hrule => Rule.spreads_of_choices (hplain rule hrule).1 (hplain rule hrule).2

theorem contains_space : CharClass.contains { members := [' '] } = (· = ' ') := by
  funext c
  rw [Bool.eq_iff_iff, CharClass.contains_members, List.mem_singleton, decide_eq_true_iff]

/-- The last rule drops the spaces in front. -/
theorem apply_trimRule (text : Text) : trimRule.apply text = text.dropWhile (· = ' ') := by
  have hmatch : trimRule.pattern.match? true text = some [text.takeWhile (· = ' ')] := by
    rw [← contains_space]
    rfl
  have hrest (rest : Text) : trimRule.scan false 0 rest = rest :=
    (Rule.rewrites_scan trimRule false rest).eq_of_fromStart rfl rfl
  by_cases hempty : text.takeWhile (· = ' ') = []
  · rw [hempty] at hmatch
    cases text with
    | nil => rfl
    | cons c text =>
      have hkeep : c ≠ ' ' := fun hc => by simp [hc] at hempty
      rw [List.dropWhile_cons_of_neg (by simpa using hkeep), Rule.apply, Rule.scan, hmatch]
      exact congrArg (c :: ·) (hrest text)
  · have hsplit : [text.takeWhile (· = ' ')].flatten ++ text.dropWhile (· = ' ') = text := by
      rw [List.flatten_singleton, List.takeWhile_append_dropWhile]
    calc trimRule.apply text
        = trimRule.scan true 0
            ([text.takeWhile (· = ' ')].flatten ++ text.dropWhile (· = ' ')) := by
          rw [hsplit, Rule.apply]
      _ = [] ++ trimRule.scan false 0 (text.dropWhile (· = ' ')) :=
          Rule.scan_append_of_some (hsplit.symm ▸ hmatch) (by simpa using hempty)
      _ = text.dropWhile (· = ' ') := hrest _

end Corpus.English

import Corpus.Proofs.English.IdleRules
import Corpus.Proofs.English.Plain
import Mathlib.Data.List.Find

/-!
# Preprocessing in one pass

The rules of the preprocessing each put a text in the place of a word. Applied one after another they
come to the same as one pass over the text, which replaces at every place the word that stands there
and goes on behind it (`applyRules_eq_pass`).

* This holds of any table in which no rule gets in the way of a later one (`Entry.Precedes`): a word
  that is looked for later has no character in common with one that has been looked for before, nor
  with what has been written, and when a word has been deleted only single characters are looked for.
* So a rule can be merged into the pass of the rules behind it (`pass_cons`): what the later ones find
  in the text after the rule is what they find in the text before it.
* Without its idle rules the preprocessing is such a table. Its words are single characters but for
  three, which gives the pass the form of `inOnePass`.
-/

namespace Corpus.English

/-! ### Entries -/

/-- **Entry.** A word, and the text that takes its place. -/
structure Entry where
  word : Text
  new : Text

/-- The rule of an entry. -/
def Entry.rule (entry : Entry) : Rule :=
  { pattern := { items := entry.word.map fun c => .one { members := [c] } }
    replacement := [.text entry.new] }

/-- The entry of a rule that puts a text in the place of a word. -/
def Rule.entry (rule : Rule) : Entry :=
  { word := (rule.pattern.choices.headD []).flatten, new := rule.written }

namespace Entry

variable {entry later : Entry} {rest text stretch : Text} {c : Char}

/-- The rule of an entry looks for its word. -/
theorem match?_rule {atStart : Bool} {found : List Text} :
    entry.rule.pattern.match? atStart text = some found ↔
      found = entry.word.map ([·]) ∧ entry.word <+: text := by
  have hplain : entry.rule.pattern.IsPlain :=
    ⟨rfl, rfl, List.forall_mem_map.mpr fun _ _ => rfl⟩
  have hchoices : entry.rule.pattern.choices = [entry.word.map ([·])] := by
    have hword (word : Text) :
        ((word.map fun c => Item.one { members := [c] }).map Item.choices).sections =
          [word.map ([·])] := by
      induction word with
      | nil => rfl
      | cons c word ih =>
        rw [List.map_cons, List.map_cons, List.sections, ih]
        rfl
    exact hword entry.word
  have hflatten : (entry.word.map ([·])).flatten = entry.word := List.flatMap_singleton' _
  rw [hplain.match?_eq_some_iff, hchoices, List.mem_singleton]
  exact and_congr_right fun hfound => by rw [hfound, hflatten]

theorem apply_nil (hne : entry.word ≠ []) : entry.rule.apply [] = [] := by
  have hnone : entry.rule.pattern.match? true [] = none := by
    rw [Option.eq_none_iff_forall_ne_some]
    exact fun found hfound => hne (List.prefix_nil.mp (match?_rule.mp hfound).2)
  rw [Rule.apply, Rule.scan, hnone]

/-- A character stays where the word does not stand. -/
theorem apply_cons (h : ¬ entry.word <+: c :: text) :
    entry.rule.apply (c :: text) = c :: entry.rule.apply text := by
  have hnone : entry.rule.pattern.match? true (c :: text) = none := by
    rw [Option.eq_none_iff_forall_ne_some]
    exact fun found hfound => h (match?_rule.mp hfound).2
  rw [Rule.apply, Rule.scan_cons_of_none hnone, Rule.apply, Rule.scan_of_unbound rfl true]

/-- The word is replaced where it stands. -/
theorem apply_append (hne : entry.word ≠ []) (rest : Text) :
    entry.rule.apply (entry.word ++ rest) = entry.new ++ entry.rule.apply rest := by
  have hflatten : (entry.word.map ([·])).flatten = entry.word := List.flatMap_singleton' _
  have hfound : entry.rule.pattern.match? true ((entry.word.map ([·])).flatten ++ rest) =
      some (entry.word.map ([·])) := by
    rw [match?_rule, hflatten]
    exact ⟨rfl, List.prefix_append _ _⟩
  have hscan := Rule.scan_append_of_some hfound (hflatten.symm ▸ hne)
  have hexpand : entry.rule.expand (entry.word.map ([·])) = entry.new := List.append_nil _
  rw [hflatten, hexpand] at hscan
  rw [Rule.apply, hscan, Rule.apply, Rule.scan_of_unbound rfl true]

/-- A stretch that has no character of the word stays. -/
theorem apply_append_of_disjoint (hne : entry.word ≠ []) (h : ∀ c ∈ stretch, c ∉ entry.word)
    (rest : Text) : entry.rule.apply (stretch ++ rest) = stretch ++ entry.rule.apply rest := by
  induction stretch with
  | nil => rfl
  | cons c stretch ih =>
    obtain ⟨hc, hstretch⟩ := List.forall_mem_cons.mp h
    have hnot : ¬ entry.word <+: c :: (stretch ++ rest) := by
      obtain ⟨d, word, hword⟩ := List.exists_cons_of_ne_nil hne
      rw [hword] at hc ⊢
      intro hbegins
      exact hc ((List.cons_prefix_cons.mp hbegins).1 ▸ List.mem_cons_self)
    rw [List.cons_append, apply_cons hnot, ih hstretch, List.cons_append]

/-- **An entry that may come before another one**: the later word has no character in common with the
word and the text of the entry, and is a single character when the entry deletes its word. -/
def Precedes (entry later : Entry) : Prop :=
  (∀ c ∈ later.word, c ∉ entry.word ∧ c ∉ entry.new) ∧ (entry.new = [] → later.word.length = 1)

instance (entry later : Entry) : Decidable (entry.Precedes later) :=
  -- the characters of the word are tried, not all characters
  have : Decidable (∀ c ∈ later.word, c ∉ entry.word ∧ c ∉ entry.new) := List.decidableBAll _ _
  inferInstanceAs (Decidable (_ ∧ _))

/-- What begins a text after the rule, and has none of its characters, has begun it before. -/
theorem isPrefix_of_isPrefix_apply (hne : entry.word ≠ [])
    (h : ∀ c ∈ stretch, c ∉ entry.word ∧ c ∉ entry.new)
    (hkeep : entry.word <+: text → entry.new ≠ []) (hnew : entry.new = [] → stretch.length ≤ 1)
    (hbegins : stretch <+: entry.rule.apply text) : stretch <+: text := by
  induction stretch generalizing text with
  | nil => exact List.nil_prefix
  | cons c stretch ih =>
    obtain ⟨hc, hstretch⟩ := List.forall_mem_cons.mp h
    by_cases hword : entry.word <+: text
    · -- then what has been written begins the new text
      obtain ⟨rest, rfl⟩ := hword
      obtain ⟨d, new, hcons⟩ := List.exists_cons_of_ne_nil (hkeep (List.prefix_append _ _))
      rw [apply_append hne, hcons, List.cons_append, List.cons_prefix_cons] at hbegins
      rw [hcons] at hc
      exact absurd (hbegins.1 ▸ List.mem_cons_self) hc.2
    · cases text with
      | nil =>
        rw [apply_nil hne] at hbegins
        cases List.prefix_nil.mp hbegins
      | cons d text =>
        rw [apply_cons hword, List.cons_prefix_cons] at hbegins
        rw [List.cons_prefix_cons]
        refine ⟨hbegins.1, ?_⟩
        by_cases hempty : entry.new = []
        · have hlength := hnew hempty
          rw [List.length_cons] at hlength
          obtain rfl : stretch = [] := List.eq_nil_of_length_eq_zero (by omega)
          exact List.nil_prefix
        · exact ih hstretch (fun _ => hempty) (fun hnil => absurd hnil hempty) hbegins.2

/-- **Later words** begin the text after the rule when they begin the text before it, unless the rule
replaces what begins it. -/
theorem Precedes.isPrefix_apply_iff (h : entry.Precedes later) (hne : entry.word ≠ [])
    (hword : ¬ entry.word <+: text) :
    later.word <+: entry.rule.apply text ↔ later.word <+: text := by
  constructor
  · exact isPrefix_of_isPrefix_apply hne h.1 (fun hbegins => absurd hbegins hword)
      fun hnil => Nat.le_of_eq (h.2 hnil)
  · rintro ⟨rest, rfl⟩
    rw [apply_append_of_disjoint hne fun c hc => (h.1 c hc).1]
    exact List.prefix_append _ _

end Entry

/-! ### One pass -/

/-- The first entry with its word at the front of a text. -/
def entryAt (entries : List Entry) (text : Text) : Option Entry :=
  entries.find? fun entry => entry.word.isPrefixOf text

/-- **One pass.** At every place the word of the first entry for it is replaced, and the next `skip`
characters belong to the last word. -/
def pass (entries : List Entry) : (skip : Nat) → Text → Text
  | _, [] => []
  | skip + 1, _ :: text => pass entries skip text
  | 0, c :: text =>
    match entryAt entries (c :: text) with
    | some entry => entry.new ++ pass entries (entry.word.length - 1) text
    | none => c :: pass entries 0 text

section Pass

variable {entry : Entry} {entries : List Entry} {text rest : Text} {c : Char}

theorem entryAt_eq_some (h : entryAt entries text = some entry) :
    entry ∈ entries ∧ entry.word <+: text := by
  rw [entryAt] at h
  have hbegins := List.find?_some h
  exact ⟨List.mem_of_find?_eq_some h, List.isPrefixOf_iff_prefix.mp hbegins⟩

theorem pass_skip (entries : List Entry) (skip : Nat) (text : Text) :
    pass entries skip text = pass entries 0 (text.drop skip) := by
  induction skip generalizing text with
  | zero => rfl
  | succ skip ih =>
    cases text with
    | nil => rw [List.drop_nil, pass, pass]
    | cons c text => rw [pass, ih, List.drop_succ_cons]

/-- A character stays where no word stands. -/
theorem pass_cons_of_none (h : entryAt entries (c :: text) = none) :
    pass entries 0 (c :: text) = c :: pass entries 0 text := by
  rw [pass, h]

/-- A word is replaced. -/
theorem pass_of_some (h : entryAt entries text = some entry) (hne : entry.word ≠ []) :
    pass entries 0 text = entry.new ++ pass entries 0 (text.drop entry.word.length) := by
  obtain ⟨c, word, hword⟩ := List.exists_cons_of_ne_nil hne
  obtain ⟨-, rest, rfl⟩ := entryAt_eq_some h
  rw [hword, List.cons_append] at h ⊢
  rw [pass, h, List.length_cons, List.drop_succ_cons, ← pass_skip]
  simp only [hword, List.length_cons, Nat.add_sub_cancel]

/-- What has no character of a word stays. -/
theorem pass_append_of_disjoint {stretch : Text} (hne : ∀ entry ∈ entries, entry.word ≠ [])
    (h : ∀ entry ∈ entries, ∀ c ∈ entry.word, c ∉ stretch) (rest : Text) :
    pass entries 0 (stretch ++ rest) = stretch ++ pass entries 0 rest := by
  induction stretch with
  | nil => rfl
  | cons c stretch ih =>
    have hnone : entryAt entries (c :: (stretch ++ rest)) = none := by
      rw [Option.eq_none_iff_forall_ne_some]
      intro entry hentry
      obtain ⟨hmem, hbegins⟩ := entryAt_eq_some hentry
      obtain ⟨d, word, hword⟩ := List.exists_cons_of_ne_nil (hne entry hmem)
      rw [hword] at hbegins
      obtain rfl := (List.cons_prefix_cons.mp hbegins).1
      exact h entry hmem d (hword ▸ List.mem_cons_self) List.mem_cons_self
    rw [List.cons_append, pass_cons_of_none hnone, List.cons_append,
      ih fun entry hmem c hc hin => h entry hmem c hc (List.mem_cons_of_mem _ hin)]

/-- **A rule merged into a pass.** -/
theorem pass_cons (hne : entry.word ≠ []) (hentries : ∀ later ∈ entries, later.word ≠ [])
    (h : ∀ later ∈ entries, entry.Precedes later) (text : Text) :
    pass (entry :: entries) 0 text = pass entries 0 (entry.rule.apply text) := by
  -- a word may have many characters, so the induction is on the length
  induction hlength : text.length using Nat.strongRecOn generalizing text with
  | ind n ih =>
    subst hlength
    by_cases hword : entry.word <+: text
    · obtain ⟨rest, rfl⟩ := hword
      have hentry : entryAt (entry :: entries) (entry.word ++ rest) = some entry :=
        List.find?_cons_of_pos (List.isPrefixOf_iff_prefix.mpr (List.prefix_append _ _))
      have hshorter : rest.length < (entry.word ++ rest).length := by
        rw [List.length_append]
        exact Nat.lt_add_of_pos_left (List.length_pos_iff.mpr hne)
      rw [pass_of_some hentry hne, List.drop_left, ih _ hshorter rest rfl, Entry.apply_append hne,
        pass_append_of_disjoint hentries fun later hlater c hc => ((h later hlater).1 c hc).2]
    · have hlater : entryAt (entry :: entries) text = entryAt entries text :=
        List.find?_cons_of_neg (mt List.isPrefixOf_iff_prefix.mp hword)
      -- the later words stand where they stood before
      have hsame : entryAt entries (entry.rule.apply text) = entryAt entries text := by
        refine List.find?_congr fun later hmem => ?_
        rw [Bool.eq_iff_iff, List.isPrefixOf_iff_prefix, List.isPrefixOf_iff_prefix,
          (h later hmem).isPrefix_apply_iff hne hword]
      cases hfound : entryAt entries text with
      | some later =>
        obtain ⟨hmem, rest, rfl⟩ := entryAt_eq_some hfound
        have hshorter : rest.length < (later.word ++ rest).length := by
          rw [List.length_append]
          exact Nat.lt_add_of_pos_left (List.length_pos_iff.mpr (hentries later hmem))
        have hrest : entry.rule.apply (later.word ++ rest) = later.word ++ entry.rule.apply rest :=
          Entry.apply_append_of_disjoint hne (fun c hc => ((h later hmem).1 c hc).1) rest
        rw [hrest] at hsame ⊢
        rw [pass_of_some (hlater.trans hfound) (hentries later hmem), List.drop_left,
          pass_of_some (hsame.trans hfound) (hentries later hmem), List.drop_left,
          ih _ hshorter rest rfl]
      | none =>
        cases text with
        | nil => rw [Entry.apply_nil hne, pass, pass]
        | cons c text =>
          rw [Entry.apply_cons hword] at hsame ⊢
          rw [pass_cons_of_none (hlater.trans hfound), pass_cons_of_none (hsame.trans hfound),
            ih _ (Nat.lt_succ_self _) text rfl]

/-- **Rules in turn are one pass**, when no rule gets in the way of a later one. -/
theorem applyRules_eq_pass (hne : ∀ entry ∈ entries, entry.word ≠ [])
    (h : entries.Pairwise Entry.Precedes) (text : Text) :
    applyRules (entries.map Entry.rule) text = pass entries 0 text := by
  induction entries generalizing text with
  | nil =>
    induction text with
    | nil => rfl
    | cons c text ih => exact congrArg (c :: ·) ih
  | cons entry entries ih =>
    obtain ⟨hword, hwords⟩ := List.forall_mem_cons.mp hne
    obtain ⟨hentry, hentries⟩ := List.pairwise_cons.mp h
    rw [List.map_cons, applyRules_cons, ih hwords hentries, pass_cons hword hwords hentry]

end Pass

/-! ### The table -/

/-- What the first rule for a character writes in its place, or the character if there is none. -/
def substitute (entries : List Entry) (c : Char) : Text :=
  ((entries.find? (·.word = [c])).map Entry.new).getD [c]

/-- **Preprocessing in one pass.** Three hyphens become two, two primes of one kind become a double
quote, and any other character becomes what the first rule for it writes. -/
def inOnePass : Text → Text
  | [] => []
  | '-' :: '-' :: '-' :: text => "--".toList ++ inOnePass text
  | '\u2035' :: '\u2035' :: text => '\x22' :: inOnePass text
  | '\u2032' :: '\u2032' :: text => '\x22' :: inOnePass text
  | c :: text => substitute (preprocessing.map Rule.entry) c ++ inOnePass text

/-- The entries of the preprocessing, without those of idle rules. -/
def preprocessingEntries : List Entry :=
  (without (idlePreprocessing.map Prod.fst) preprocessing).map Rule.entry

theorem map_rule_preprocessingEntries :
    preprocessingEntries.map Entry.rule = without (idlePreprocessing.map Prod.fst) preprocessing :=
  rfl

/-- The words of more than one character. -/
def longWords : List Text := ["---".toList, "\u2035\u2035".toList, "\u2032\u2032".toList]

/-- Where none of the long words stands, the entry is that of the character. -/
theorem entryAt_preprocessingEntries {c : Char} {text : Text}
    (h : ∀ word ∈ longWords, ¬ word <+: c :: text) :
    entryAt preprocessingEntries (c :: text) = preprocessingEntries.find? (·.word = [c]) := by
  have htable : ∀ entry ∈ preprocessingEntries, entry.word ∈ longWords ∨ entry.word.length = 1 := by
    decide
  refine List.find?_congr fun entry hmem => ?_
  rw [Bool.eq_iff_iff, List.isPrefixOf_iff_prefix, decide_eq_true_iff]
  rcases htable entry hmem with hlong | hsingle
  · have hne : entry.word ≠ [c] := by
      intro hword
      exact h entry.word hlong (hword ▸ List.prefix_append [c] text)
    exact iff_of_false (h entry.word hlong) hne
  · obtain ⟨d, hd⟩ := List.length_eq_one_iff.mp hsingle
    rw [hd, List.cons_prefix_cons, List.cons.injEq]
    simp

/-- A character without a rule is copied. -/
theorem substitute_of_forall_ne {entries : List Entry} {c : Char}
    (h : ∀ entry ∈ entries, entry.word ≠ [c]) : substitute entries c = [c] := by
  have hnone : entries.find? (·.word = [c]) = none := by simpa using h
  rw [substitute, hnone]
  rfl

/-- Idle rules do not matter for what takes the place of a character. -/
theorem substitute_preprocessingEntries (c : Char) :
    substitute preprocessingEntries c = substitute (preprocessing.map Rule.entry) c := by
  by_cases hc : c ∈ (preprocessing.map Rule.entry).flatMap Entry.word
  · have htable : ((preprocessing.map Rule.entry).flatMap Entry.word).all fun c =>
        substitute preprocessingEntries c = substitute (preprocessing.map Rule.entry) c := by
      decide
    simpa using List.all_eq_true.mp htable c hc
  · have hall : ∀ entry ∈ preprocessing.map Rule.entry, entry.word ≠ [c] := by
      intro entry hmem hword
      exact hc (List.mem_flatMap.mpr ⟨entry, hmem, hword ▸ List.mem_cons_self⟩)
    have hsubset : preprocessingEntries ⊆ preprocessing.map Rule.entry :=
      List.map_subset _ (without_subset _ _)
    rw [substitute_of_forall_ne hall,
      substitute_of_forall_ne fun entry hmem => hall entry (hsubset hmem)]

/-- **Preprocessing is one pass.** -/
theorem preprocess_in_one_pass (text : Text) : applyRules preprocessing text = inOnePass text := by
  have hne : ∀ entry ∈ preprocessingEntries, entry.word ≠ [] := by decide
  have hprecede : preprocessingEntries.Pairwise Entry.Precedes := by decide +kernel
  rw [← applyRules_without_idlePreprocessing, ← map_rule_preprocessingEntries,
    applyRules_eq_pass hne hprecede]
  fun_induction inOnePass text with
  | case1 => rfl
  | case2 text ih =>
    have hentry : entryAt preprocessingEntries ('-' :: '-' :: '-' :: text) =
        some ⟨"---".toList, "--".toList⟩ := rfl
    rw [← ih]
    exact pass_of_some hentry (List.cons_ne_nil _ _)
  | case3 text ih =>
    have hentry : entryAt preprocessingEntries ('\u2035' :: '\u2035' :: text) =
        some ⟨"\u2035\u2035".toList, ['\x22']⟩ := rfl
    rw [← ih]
    exact pass_of_some hentry (List.cons_ne_nil _ _)
  | case4 text ih =>
    have hentry : entryAt preprocessingEntries ('\u2032' :: '\u2032' :: text) =
        some ⟨"\u2032\u2032".toList, ['\x22']⟩ := rfl
    rw [← ih]
    exact pass_of_some hentry (List.cons_ne_nil _ _)
  | case5 c text hhyphens hfirst hsecond ih =>
    have hlong : ∀ word ∈ longWords, ¬ word <+: c :: text := by
      simp only [longWords, List.forall_mem_cons]
      refine ⟨?_, ?_, ?_, List.forall_mem_nil _⟩
      · rintro ⟨rest, hrest⟩
        exact hhyphens rest (List.cons.inj hrest).1.symm (List.cons.inj hrest).2.symm
      · rintro ⟨rest, hrest⟩
        exact hfirst rest (List.cons.inj hrest).1.symm (List.cons.inj hrest).2.symm
      · rintro ⟨rest, hrest⟩
        exact hsecond rest (List.cons.inj hrest).1.symm (List.cons.inj hrest).2.symm
    have hentry := entryAt_preprocessingEntries hlong
    rw [← substitute_preprocessingEntries, substitute, ← ih]
    cases hfound : preprocessingEntries.find? (·.word = [c]) with
    | none => exact pass_cons_of_none (hentry.trans hfound)
    | some entry =>
      have hword : entry.word = [c] := by simpa using List.find?_some hfound
      rw [pass_of_some (hentry.trans hfound) (by simp [hword]), hword]
      rfl

end Corpus.English

import Corpus.Proofs.English.TakingApart

/-!
# What is left of contractions

Every rule for clitics and contractions runs once, so a rewritten text can still have words in it
that one of them would take apart. It has them in two places only.

* A word still ends in a clitic when another one was detached behind it by the same rule or a later
  one, which has made the ending visible too late (`Followed`).
* A contraction still stands where the word before it was one of the same rule and took the space
  between them (`Behind`).

Both are invariants of the lists of words: the rule itself brings each of them about, and the later
rules keep it, since they touch neither the clitics that have been detached nor the parts of a
contraction.
-/

namespace Corpus.English

variable {word : Text} {words : List Text} {endings followers others : List Text}
  {forms otherForms : List (List Text)}

/-! ### Clitics -/

/-- **A word ends in a clitic** with something before it. -/
def EndsIn (endings : List Text) (word : Text) : Prop :=
  ∃ front, ∃ ending ∈ endings, front ≠ [] ∧ word = front ++ ending

/-- **Endings that do not get in each other's way**: none is the end of another one. -/
def IsSuffixFree (endings : List Text) : Prop :=
  [] ∉ endings ∧ endings.Nodup ∧
    ∀ ending ∈ endings, ∀ other ∈ endings, ending <:+ other → ending = other

instance (endings : List Text) : Decidable (IsSuffixFree endings) :=
  inferInstanceAs (Decidable (_ ∧ _ ∧ _))

/-- **Followed endings.** Every word that ends in one of the endings is followed by one of the
followers. -/
inductive Followed (endings followers : List Text) : List Text → Prop
  | nil : Followed endings followers []
  | cons {word : Text} {words : List Text} :
      (EndsIn endings word → ∃ next ∈ followers, words.head? = some next) →
      Followed endings followers words → Followed endings followers (word :: words)

namespace IsSuffixFree

/-- No ending has another one at its end. -/
theorem not_endsIn (h : IsSuffixFree endings) (hword : word ∈ endings)
    (hothers : others ⊆ endings) : ¬ EndsIn others word := by
  rintro ⟨front, ending, hending, hne, rfl⟩
  have heq := h.2.2 ending (hothers hending) _ hword (List.suffix_append _ _)
  exact hne (List.append_left_eq_self.mp heq.symm)

/-- Detaching some endings leaves the others alone. -/
theorem detach_eq (h : IsSuffixFree (followers ++ others)) (hword : word ∈ followers) :
    detach others word = [word] := by
  obtain ⟨hne, hnodup, hfree⟩ := h
  have hothers : [] ∉ others := fun hmem => hne (List.mem_append_right _ hmem)
  rcases detach_cases hothers word with ⟨hstay, -⟩ | ⟨front, ending, hending, hsplit, -⟩
  · exact hstay
  · have heq := hfree ending (List.mem_append_right _ hending) word (List.mem_append_left _ hword)
      ⟨front, hsplit.symm⟩
    obtain ⟨-, -, hdisjoint⟩ := List.nodup_append.mp hnodup
    exact absurd heq.symm (hdisjoint word hword ending hending)

theorem left (h : IsSuffixFree (endings ++ others)) : IsSuffixFree endings := by
  obtain ⟨hne, hnodup, hfree⟩ := h
  exact ⟨fun hmem => hne (List.mem_append_left _ hmem), (List.nodup_append.mp hnodup).1,
    fun ending hending other hother =>
      hfree ending (List.mem_append_left _ hending) other (List.mem_append_left _ hother)⟩

theorem right (h : IsSuffixFree (endings ++ others)) : IsSuffixFree others := by
  obtain ⟨hne, hnodup, hfree⟩ := h
  exact ⟨fun hmem => hne (List.mem_append_right _ hmem), (List.nodup_append.mp hnodup).2.1,
    fun ending hending other hother =>
      hfree ending (List.mem_append_right _ hending) other (List.mem_append_right _ hother)⟩

end IsSuffixFree

/-- **A rule for clitics** leaves its endings in words only where it has detached one behind. -/
theorem followed_flatMap_detach (h : IsSuffixFree endings) (words : List Text) :
    Followed endings endings (words.flatMap (detach endings)) := by
  induction words with
  | nil => exact .nil
  | cons word words ih =>
    rw [List.flatMap_cons]
    rcases detach_cases h.1 word with ⟨hstay, hno⟩ | ⟨front, ending, hending, -, hdetach⟩
    · rw [hstay]
      refine .cons ?_ ih
      rintro ⟨front, ending, hending, -, rfl⟩
      exact absurd (List.suffix_append _ _) (hno ending hending)
    · rw [hdetach]
      exact .cons (fun _ => ⟨ending, hending, rfl⟩)
        (.cons (fun hends => absurd hends (h.not_endsIn hending (List.Subset.refl _))) ih)

namespace Followed

/-- Another rule for clitics keeps this, when what it detaches counts as a follower, too. -/
theorem flatMap_detach (h : Followed endings followers words) (hsub : endings ⊆ followers)
    (hfree : IsSuffixFree (followers ++ others)) :
    Followed endings (followers ++ others) (words.flatMap (detach others)) := by
  have hne : [] ∉ others := fun hmem => hfree.1 (List.mem_append_right _ hmem)
  induction words with
  | nil => exact .nil
  | cons word words ih =>
    obtain _ | ⟨hword, hwords⟩ := h
    rw [List.flatMap_cons]
    rcases detach_cases hne word with ⟨hstay, -⟩ | ⟨front, ending, hending, -, hdetach⟩
    · -- the clitic behind the word has no other one at its end, so it still stands there
      rw [hstay]
      refine .cons (fun hends => ?_) (ih hwords)
      obtain ⟨next, hnext, hhead⟩ := hword hends
      obtain ⟨tail, rfl⟩ := List.head?_eq_some_iff.mp hhead
      refine ⟨next, List.mem_append_left _ hnext, ?_⟩
      rw [List.flatMap_cons, hfree.detach_eq hnext]
      rfl
    · rw [hdetach]
      have hmem : ending ∈ followers ++ others := List.mem_append_right _ hending
      exact .cons (fun _ => ⟨ending, hmem, rfl⟩) (.cons (fun hends => absurd hends
        (hfree.not_endsIn hmem fun _ hmem => List.mem_append_left _ (hsub hmem))) (ih hwords))

/-- All later rules for clitics keep it. -/
theorem detachAll {kinds : List (List Text)} (h : Followed endings followers words)
    (hsub : endings ⊆ followers) (hfree : IsSuffixFree (followers ++ kinds.flatten)) :
    Followed endings (followers ++ kinds.flatten) (detachAll kinds words) := by
  induction kinds generalizing followers words with
  | nil =>
    rw [List.flatten_nil, List.append_nil]
    exact h
  | cons others kinds ih =>
    rw [List.flatten_cons, ← List.append_assoc] at hfree ⊢
    exact ih (h.flatMap_detach hsub hfree.left) (fun _ hmem => List.mem_append_left _ (hsub hmem))
      hfree

/-- Words that do not end so are no matter. -/
theorem append (h : Followed endings followers words) {front : List Text}
    (hfront : ∀ word ∈ front, ¬ EndsIn endings word) :
    Followed endings followers (front ++ words) := by
  induction front with
  | nil => exact h
  | cons word front ih =>
    obtain ⟨hword, hfront⟩ := List.forall_mem_cons.mp hfront
    exact .cons (fun hends => absurd hends hword) (ih hfront)

/-- So do the rules for contractions: no clitic is one of their forms, and no part ends in a clitic.
-/
theorem takeApart (h : Followed endings followers words)
    (hforms : ∀ parts ∈ forms, parts.flatten ∉ followers)
    (hparts : ∀ parts ∈ forms, ∀ part ∈ parts, ¬ EndsIn endings part) (free : Bool) :
    Followed endings followers (takeApart forms free words) := by
  induction words generalizing free with
  | nil => cases free <;> exact .nil
  | cons word words ih =>
    obtain _ | ⟨hword, hwords⟩ := h
    rcases takeApart_cons forms free word words with ⟨hstay, -⟩ | ⟨parts, hmem, -, htaken⟩
    · rw [hstay]
      refine .cons (fun hends => ?_) (ih hwords true)
      obtain ⟨next, hnext, hhead⟩ := hword hends
      obtain ⟨tail, rfl⟩ := List.head?_eq_some_iff.mp hhead
      refine ⟨next, hnext, ?_⟩
      rcases takeApart_cons forms true next tail with ⟨hnextstay, -⟩ | ⟨parts, hmem, hform, -⟩
      · rw [hnextstay]
        rfl
      · exact absurd hnext (hform ▸ hforms parts hmem)
    · rw [htaken]
      exact (ih hwords false).append (hparts parts hmem)

/-- All of them. -/
theorem takeAllApart {kinds : List (List (List Text))} (h : Followed endings followers words)
    (hkinds : ∀ forms ∈ kinds, ∀ parts ∈ forms, parts.flatten ∉ followers ∧
      ∀ part ∈ parts, ¬ EndsIn endings part) :
    Followed endings followers (takeAllApart kinds words) := by
  induction kinds generalizing words with
  | nil => exact h
  | cons forms kinds ih =>
    obtain ⟨hforms, hkinds⟩ := List.forall_mem_cons.mp hkinds
    exact ih (h.takeApart (fun parts hparts => (hforms parts hparts).1)
      (fun parts hparts => (hforms parts hparts).2) true) hkinds

/-- So does dropping the empty words. -/
theorem filter (h : Followed endings followers words) (hne : [] ∉ followers) :
    Followed endings followers (words.filter (· ≠ [])) := by
  induction words with
  | nil => exact .nil
  | cons word words ih =>
    obtain _ | ⟨hword, hwords⟩ := h
    by_cases hnil : word = []
    · rw [List.filter_cons_of_neg (by simpa using hnil)]
      exact ih hwords
    · rw [List.filter_cons_of_pos (by simpa using hnil)]
      refine .cons (fun hends => ?_) (ih hwords)
      obtain ⟨next, hnext, hhead⟩ := hword hends
      obtain ⟨tail, rfl⟩ := List.head?_eq_some_iff.mp hhead
      have hnextne : next ≠ [] := fun heq => hne (heq ▸ hnext)
      exact ⟨next, hnext, by rw [List.filter_cons_of_pos (by simpa using hnextne)]; rfl⟩

/-- What it says of one word. -/
theorem exists_next {before after : List Text}
    (h : Followed endings followers (before ++ word :: after)) (hends : EndsIn endings word) :
    ∃ next ∈ followers, after.head? = some next := by
  induction before with
  | nil =>
    obtain _ | ⟨hword, -⟩ := h
    exact hword hends
  | cons _ before ih =>
    obtain _ | ⟨-, hwords⟩ := h
    exact ih hwords

end Followed

/-- **The rules for clitics in turn.** A word that ends in a clitic is followed by one of the same
rule or a later one. -/
theorem followed_detachAll {kinds : List (List Text)} (h : IsSuffixFree kinds.flatten)
    (words : List Text) {i : Nat} (hi : kinds[i]? = some endings) :
    Followed endings (kinds.drop i).flatten (detachAll kinds words) := by
  induction kinds generalizing words i with
  | nil => cases hi
  | cons first kinds ih =>
    rw [List.flatten_cons] at h
    cases i with
    | zero =>
      obtain rfl : first = endings := Option.some.inj hi
      -- the first rule brings it about, and the others keep it
      exact (followed_flatMap_detach h.left words).detachAll (List.Subset.refl _) h
    | succ i => exact ih h.right _ hi

/-! ### Contractions -/

/-- **A form** of a contraction. -/
def IsForm (forms : List (List Text)) (word : Text) : Prop := ∃ parts ∈ forms, parts.flatten = word

instance (forms : List (List Text)) (word : Text) : Decidable (IsForm forms word) :=
  inferInstanceAs (Decidable (∃ _ ∈ _, _))

/-- **Forms behind forms.** Every form among the words, behind some others, stands behind the parts
of one. -/
inductive Behind (forms : List (List Text)) : (before : List Text) → List Text → Prop
  | nil {before : List Text} : Behind forms before []
  | cons {before words : List Text} {word : Text} :
      (IsForm forms word → ∃ parts ∈ forms, parts <:+ before) →
      Behind forms (before ++ [word]) words → Behind forms before (word :: words)

namespace Behind

variable {before before' : List Text}

/-- Words that are no forms are no matter. -/
theorem append {front : List Text} (h : Behind forms (before ++ front) words)
    (hfront : ∀ word ∈ front, ¬ IsForm forms word) : Behind forms before (front ++ words) := by
  induction front generalizing before with
  | nil => rwa [List.append_nil] at h
  | cons word front ih =>
    obtain ⟨hword, hfront⟩ := List.forall_mem_cons.mp hfront
    refine .cons (fun hform => absurd hform hword) (ih ?_ hfront)
    rwa [List.append_assoc]

/-- Another rule for contractions keeps this: the parts behind which a form stands are no forms. -/
theorem takeApart (h : Behind forms before words)
    (hforms : ∀ parts ∈ forms, ∀ part ∈ parts, ¬ IsForm otherForms part)
    (hothers : ∀ parts ∈ otherForms, ∀ part ∈ parts, ¬ IsForm forms part)
    (hsame : ∀ stretch, (∀ word ∈ stretch, ¬ IsForm otherForms word) → stretch <:+ before →
      stretch <:+ before') (free : Bool) :
    Behind forms before' (takeApart otherForms free words) := by
  -- what stands behind is changed, too; `hsame` says that parts of `forms` are still at its end
  induction words generalizing before before' free with
  | nil => cases free <;> exact .nil
  | cons word words ih =>
    obtain _ | ⟨hword, hwords⟩ := h
    rcases takeApart_cons otherForms free word words with ⟨hstay, -⟩ | ⟨parts, hmem, hform, htaken⟩
    · rw [hstay]
      refine .cons (fun hform => ?_) (ih hwords (fun stretch hstretch hsuffix => ?_) true)
      · obtain ⟨parts, hparts, hsuffix⟩ := hword hform
        exact ⟨parts, hparts, hsame parts (hforms parts hparts) hsuffix⟩
      · rcases List.suffix_concat_iff.mp hsuffix with rfl | ⟨front, rfl, hfront⟩
        · exact List.nil_suffix
        · exact List.suffix_concat_iff.mpr (.inr ⟨front, rfl,
            hsame front (fun word hword => hstretch word (List.mem_append_left _ hword)) hfront⟩)
    · rw [htaken]
      refine (ih hwords (fun stretch hstretch hsuffix => ?_) false).append (hothers parts hmem)
      rcases List.suffix_concat_iff.mp hsuffix with rfl | ⟨front, rfl, -⟩
      · exact List.nil_suffix
      · exact absurd ⟨parts, hmem, hform⟩
          (hstretch word (List.mem_append_right _ List.mem_cons_self))

/-- All later rules for contractions keep it. -/
theorem takeAllApart {kinds : List (List (List Text))} (h : Behind forms before words)
    (hforms : ∀ otherForms ∈ kinds, ∀ parts ∈ forms, ∀ part ∈ parts, ¬ IsForm otherForms part)
    (hothers : ∀ otherForms ∈ kinds, ∀ parts ∈ otherForms, ∀ part ∈ parts, ¬ IsForm forms part) :
    Behind forms before (takeAllApart kinds words) := by
  induction kinds generalizing words with
  | nil => exact h
  | cons otherForms kinds ih =>
    obtain ⟨hform, hforms⟩ := List.forall_mem_cons.mp hforms
    obtain ⟨hother, hothers⟩ := List.forall_mem_cons.mp hothers
    exact ih (h.takeApart hform hother (fun _ _ hsuffix => hsuffix) true) hforms hothers

/-- So does dropping the empty words. -/
theorem filter (h : Behind forms before words) (hne : ∀ parts ∈ forms, [] ∉ parts) :
    Behind forms (before.filter (· ≠ [])) (words.filter (· ≠ [])) := by
  induction words generalizing before with
  | nil => exact .nil
  | cons word words ih =>
    obtain _ | ⟨hword, hwords⟩ := h
    have hlater := ih hwords
    rw [List.filter_append] at hlater
    by_cases hnil : word = []
    · rw [List.filter_cons_of_neg (by simpa using hnil)] at hlater ⊢
      rwa [List.filter_nil, List.append_nil] at hlater
    · rw [List.filter_cons_of_pos (by simpa using hnil)] at hlater ⊢
      refine .cons (fun hform => ?_) hlater
      obtain ⟨parts, hparts, hsuffix⟩ := hword hform
      have hkeep : parts.filter (· ≠ []) = parts := List.filter_eq_self.mpr fun part hpart =>
        decide_eq_true fun heq => hne parts hparts (heq ▸ hpart)
      exact ⟨parts, hparts, hkeep ▸ hsuffix.filter _⟩

/-- What it says of one word. -/
theorem exists_parts {earlier after : List Text}
    (h : Behind forms before (earlier ++ word :: after)) (hform : IsForm forms word) :
    ∃ parts ∈ forms, parts <:+ before ++ earlier := by
  induction earlier generalizing before with
  | nil =>
    obtain _ | ⟨hword, -⟩ := h
    rw [List.append_nil]
    exact hword hform
  | cons first earlier ih =>
    obtain _ | ⟨-, hwords⟩ := h
    have hlater := ih hwords
    rwa [List.append_assoc] at hlater

end Behind

/-- **A rule for contractions** leaves a form only behind the parts of another one. -/
theorem behind_takeApart (hparts : ∀ parts ∈ forms, ∀ part ∈ parts, ¬ IsForm forms part)
    {before : List Text} (free : Bool) (hfree : free = false → ∃ parts ∈ forms, parts <:+ before)
    (words : List Text) : Behind forms before (takeApart forms free words) := by
  -- no space is free only right behind the parts that have taken it
  induction words generalizing before free with
  | nil => cases free <;> exact .nil
  | cons word words ih =>
    rcases takeApart_cons forms free word words with ⟨hstay, hno⟩ | ⟨parts, hmem, -, htaken⟩
    · rw [hstay]
      refine .cons ?_ (ih true nofun)
      rintro ⟨parts, hmem, hform⟩
      cases free with
      | false => exact hfree rfl
      | true => exact absurd hform (hno rfl parts hmem)
    · rw [htaken]
      exact (ih false fun _ => ⟨parts, hmem, List.suffix_append _ _⟩).append (hparts parts hmem)

/-- **The rules for contractions in turn.** A form stands behind the parts of another one of the
same rule. -/
theorem behind_takeAllApart {kinds : List (List (List Text))}
    (h : ∀ forms ∈ kinds, ∀ parts ∈ forms, ∀ part ∈ parts, ∀ otherForms ∈ kinds,
      ¬ IsForm otherForms part) (words : List Text) :
    ∀ forms ∈ kinds, Behind forms [] (takeAllApart kinds words) := by
  induction kinds generalizing words with
  | nil => exact List.forall_mem_nil _
  | cons first kinds ih =>
    have hlater {forms : List (List Text)} (hmem : forms ∈ kinds) : forms ∈ first :: kinds :=
      List.mem_cons_of_mem _ hmem
    refine List.forall_mem_cons.mpr ⟨?_, ih (fun forms hmem parts hparts part hpart other hother =>
      h forms (hlater hmem) parts hparts part hpart other (hlater hother)) _⟩
    have hself : Behind first [] (takeApart first true words) :=
      behind_takeApart (fun parts hparts part hpart =>
        h first List.mem_cons_self parts hparts part hpart first List.mem_cons_self) true nofun
        words
    exact hself.takeAllApart
      (fun other hother parts hparts part hpart =>
        h first List.mem_cons_self parts hparts part hpart other (hlater hother))
      (fun other hother parts hparts part hpart =>
        h other (hlater hother) parts hparts part hpart first List.mem_cons_self)

/-! ### Rewriting -/

/-- **Rules that do not get in each other's way**: clitics are suffix free and no forms, parts are
not empty, no forms, and do not end in clitics. -/
def Independent (endingKinds : List (List Text)) (formKinds : List (List (List Text))) : Prop :=
  IsSuffixFree endingKinds.flatten ∧
    ∀ forms ∈ formKinds, ∀ parts ∈ forms, parts.flatten ∉ endingKinds.flatten ∧
      ∀ part ∈ parts, part ≠ [] ∧ (∀ otherForms ∈ formKinds, ¬ IsForm otherForms part) ∧
        ∀ ending ∈ endingKinds.flatten, ¬ ending <:+ part

instance (endingKinds : List (List Text)) (formKinds : List (List (List Text))) :
    Decidable (Independent endingKinds formKinds) :=
  inferInstanceAs (Decidable (_ ∧ _))

theorem independent_contractions : Independent clitics contractions := by decide

namespace Independent

variable {endingKinds : List (List Text)} {formKinds : List (List (List Text))}

/-- The words that are left, after the forms. -/
theorem behind (h : Independent endingKinds formKinds) (words : List Text)
    (hforms : forms ∈ formKinds) :
    Behind forms [] ((takeAllApart formKinds words).filter (· ≠ [])) := by
  have hbehind := behind_takeAllApart (fun forms hforms parts hparts part hpart =>
    ((h.2 forms hforms parts hparts).2 part hpart).2.1) words forms hforms
  exact hbehind.filter fun parts hparts hmem => ((h.2 forms hforms parts hparts).2 [] hmem).1 rfl

/-- The words that are left, after the clitics. -/
theorem followed (h : Independent endingKinds formKinds) (words : List Text) {i : Nat}
    (hi : endingKinds[i]? = some endings) :
    Followed endings (endingKinds.drop i).flatten
      ((takeAllApart formKinds (detachAll endingKinds words)).filter (· ≠ [])) := by
  obtain ⟨hfree, hforms⟩ := h
  have hdetached := followed_detachAll hfree words hi
  have hendings : endings ∈ endingKinds := List.mem_of_getElem? hi
  have hlater : (endingKinds.drop i).flatten ⊆ endingKinds.flatten := fun ending hending => by
    obtain ⟨kind, hkind, hending⟩ := List.mem_flatten.mp hending
    exact List.mem_flatten.mpr ⟨kind, List.mem_of_mem_drop hkind, hending⟩
  have htaken : Followed endings (endingKinds.drop i).flatten
      (takeAllApart formKinds (detachAll endingKinds words)) :=
    hdetached.takeAllApart fun forms hmem parts hparts =>
      ⟨fun hending => (hforms forms hmem parts hparts).1 (hlater hending),
      fun part hpart hends => by
        obtain ⟨front, ending, hending, -, rfl⟩ := hends
        exact ((hforms forms hmem parts hparts).2 _ hpart).2.2 ending
          (List.mem_flatten.mpr ⟨endings, hendings, hending⟩) (List.suffix_append _ _)⟩
  exact htaken.filter fun hmem => hfree.1 (hlater hmem)

end Independent

/-- **What is left of contractions** in the words of a rewritten text: a contraction stands right
behind the parts of one of the same kind, and a word with a clitic at its end right before a clitic
of the same kind or a later one. -/
theorem contraction_behind_parts {text word : Text} {before after : List Text}
    (h : spacedWords (rewrite text) = before ++ word :: after) :
    (∀ forms ∈ contractions, IsForm forms word → ∃ parts ∈ forms, parts <:+ before) ∧
      ∀ i endings, clitics[i]? = some endings → EndsIn endings word →
        ∃ next ∈ (clitics.drop i).flatten, after.head? = some next := by
  obtain ⟨words, hwords⟩ := exists_takenApart text
  rw [hwords, takenApart] at h
  constructor
  · intro forms hforms hform
    have hbehind := independent_contractions.behind (detachAll clitics words) hforms
    rw [h] at hbehind
    exact hbehind.exists_parts hform
  · intro i endings hi hends
    have hfollowed := independent_contractions.followed words hi
    rw [h] at hfollowed
    exact hfollowed.exists_next hends

/-- One contraction of two and one clitic of two are left. -/
theorem contraction_behind_parts_adjacent :
    spacedWords (rewrite "cannot cannot I\x27d\x27ve".toList) =
        ["can".toList, "not".toList] ++ "cannot".toList :: ["I\x27d".toList, "\x27ve".toList] ∧
      (∃ parts ∈ [["can".toList, "not".toList], ["Can".toList, "not".toList]],
        parts <:+ ["can".toList, "not".toList]) ∧
      ∃ next ∈ (clitics.drop 0).flatten, ["\x27ve".toList].head? = some next := by
  have hcannot : spacedWords (rewrite "cannot cannot I\x27d\x27ve".toList) =
      ["can".toList, "not".toList] ++ "cannot".toList :: ["I\x27d".toList, "\x27ve".toList] := by
    decide +kernel
  have hclitic : spacedWords (rewrite "cannot cannot I\x27d\x27ve".toList) =
      ["can".toList, "not".toList, "cannot".toList] ++ "I\x27d".toList :: ["\x27ve".toList] :=
    hcannot
  refine ⟨hcannot, (contraction_behind_parts hcannot).1 _ (by decide) (by decide),
    (contraction_behind_parts hclitic).2 0 _ rfl ?_⟩
  exact ⟨"I".toList, "\x27d".toList, by decide, by decide, by decide⟩

end Corpus.English

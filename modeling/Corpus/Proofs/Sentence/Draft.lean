import Corpus.Sentence.Draft

/-!
# From tokens to a sentence

* Tokens are put in place by moving each to the bytes of its word in the text of all words; this
  changes nothing else about them.
* A token is its place and what is left of it without the place. So a list of tokens is in place
  when the spans are those of the words.
* A draft becomes a sentence without a note exactly when it has from one to a hundred tokens. The note
  of any other sentence quotes the text of too many tokens or consists of the comments. With neither
  tokens nor comments a draft becomes nothing.
-/

namespace Corpus

/-! ### Places -/

/-- The bytes that a token covers. -/
def Token.span (token : Token) : Int × Int := (token.start, token.last)

/-- A token without its place. -/
def Token.unplaced (token : Token) : Token := { token with start := 0, last := -1 }

/-- **Tokens in place.** Each token at the bytes of its word in the text of all words. -/
def inPlace (tokens : List Token) : List Token :=
  List.zipWith Token.movedTo (wordTokens (tokens.map Token.word)) tokens

/-- **The sentence of tokens.** Their words joined by spaces, and the tokens in place. -/
def Sentence.ofTokens (docid : Option Text) (tokens : List Token) : Sentence :=
  { docid, text := wordText (tokens.map Token.word), tokens := inPlace tokens }

@[simp] theorem Token.unplaced_movedTo (place token : Token) :
    (place.movedTo token).unplaced = token.unplaced := rfl

@[simp] theorem Token.span_movedTo (place token : Token) :
    (place.movedTo token).span = place.span := rfl

/-- A placed word is a token without annotations. -/
theorem Token.exists_of_mem_placed {gap offset : Nat} {words : List Text} {token : Token}
    (h : token ∈ placed gap offset words) :
    ∃ word ∈ words, ∃ start last, token = { word, start, last } := by
  induction words generalizing offset with
  | nil => cases h
  | cons word words ih =>
    rcases List.mem_cons.mp h with rfl | h
    · exact ⟨word, List.mem_cons_self, _, _, rfl⟩
    · obtain ⟨other, hother, start, last, rfl⟩ := ih h
      exact ⟨other, List.mem_cons_of_mem _ hother, start, last, rfl⟩

/-- A token is its place and what is left of it. -/
theorem Token.ext_unplaced_span {a b : Token} (hu : a.unplaced = b.unplaced)
    (hs : a.span = b.span) : a = b := by
  cases a
  cases b
  simp only [unplaced, Token.mk.injEq] at hu
  simp only [span, Prod.mk.injEq] at hs
  simp only [Token.mk.injEq]
  exact ⟨hu.1, hs.1, hs.2, hu.2.2.2⟩

/-- Whatever does not depend on the places is kept when tokens are moved. -/
theorem map_zipWith_movedTo {β : Type} {f : Token → β}
    (hf : ∀ place token, f (Token.movedTo place token) = f token) {places tokens : List Token}
    (hlen : places.length = tokens.length) :
    (List.zipWith Token.movedTo places tokens).map f = tokens.map f := by
  induction places generalizing tokens with
  | nil =>
    obtain rfl := List.eq_nil_of_length_eq_zero hlen.symm
    rfl
  | cons place places ih =>
    cases tokens with
    | nil => cases hlen
    | cons token tokens =>
      rw [List.zipWith_cons_cons, List.map_cons, List.map_cons, hf, ih (Nat.succ.inj hlen)]

theorem length_wordTokens_map_word (tokens : List Token) :
    (wordTokens (tokens.map Token.word)).length = tokens.length := by
  rw [wordTokens, Token.length_placed, List.length_map]

/-- Whatever does not depend on the places is the same for tokens in place. -/
theorem map_inPlace {β : Type} {f : Token → β}
    (hf : ∀ place token, f (Token.movedTo place token) = f token) (tokens : List Token) :
    (inPlace tokens).map f = tokens.map f :=
  map_zipWith_movedTo hf (length_wordTokens_map_word tokens)

/-- What does not depend on the places holds of all tokens in place when it holds of all tokens. -/
theorem forall_mem_inPlace_iff {p : Token → Prop}
    (hp : ∀ place token, p (Token.movedTo place token) ↔ p token) {tokens : List Token} :
    (∀ token ∈ inPlace tokens, p token) ↔ ∀ token ∈ tokens, p token := by
  have hmap : (inPlace tokens).map p = tokens.map p :=
    map_inPlace (fun place token => propext (hp place token)) tokens
  have hall (tokens : List Token) : (∀ token ∈ tokens, p token) ↔ ∀ q ∈ tokens.map p, q :=
    (List.forall_mem_map (P := fun q => q)).symm
  rw [hall, hmap, ← hall]

/-- The spans of tokens in place are those of their words. -/
theorem map_span_inPlace (tokens : List Token) :
    (inPlace tokens).map Token.span = (wordTokens (tokens.map Token.word)).map Token.span := by
  have hlen := length_wordTokens_map_word tokens
  rw [inPlace]
  generalize wordTokens (tokens.map Token.word) = places at hlen ⊢
  induction places generalizing tokens with
  | nil => rw [List.zipWith_nil_left]
  | cons place places ih =>
    cases tokens with
    | nil => cases hlen
    | cons token tokens =>
      rw [List.zipWith_cons_cons, List.map_cons, List.map_cons, Token.span_movedTo,
        ih _ (Nat.succ.inj hlen)]

@[simp] theorem length_inPlace (tokens : List Token) : (inPlace tokens).length = tokens.length := by
  have h := congrArg List.length (map_inPlace (f := Token.unplaced) (fun _ _ => rfl) tokens)
  simpa using h

/-- Tokens are equal when they agree in their places and in everything else. -/
theorem eq_of_map_unplaced_of_map_span {as bs : List Token}
    (hu : as.map Token.unplaced = bs.map Token.unplaced)
    (hs : as.map Token.span = bs.map Token.span) : as = bs := by
  induction as generalizing bs with
  | nil =>
    obtain rfl := List.map_eq_nil_iff.mp hu.symm
    rfl
  | cons a as ih =>
    cases bs with
    | nil => cases hu
    | cons b bs =>
      simp only [List.map_cons, List.cons.injEq] at hu hs
      rw [Token.ext_unplaced_span hu.1 hs.1, ih hu.2 hs.2]

/-- **Being in place.** Tokens in place are known by what they are without their places and by the
spans of their words. -/
theorem inPlace_eq_iff {tokens others : List Token} :
    inPlace tokens = others ↔
      tokens.map Token.unplaced = others.map Token.unplaced ∧
        others.map Token.span = (wordTokens (others.map Token.word)).map Token.span := by
  constructor
  · rintro rfl
    refine ⟨(map_inPlace (f := Token.unplaced) (fun _ _ => rfl) tokens).symm, ?_⟩
    rw [map_span_inPlace, map_inPlace (f := Token.word) (fun _ _ => rfl)]
  · rintro ⟨hu, hs⟩
    have hwords : tokens.map Token.word = others.map Token.word := by
      have h := congrArg (List.map Token.word) hu
      simpa only [List.map_map, Function.comp_def, Token.unplaced] using h
    refine eq_of_map_unplaced_of_map_span ?_ ?_
    · rw [map_inPlace (fun _ _ => rfl), hu]
    · rw [map_span_inPlace, hwords, hs]

/-- **The sentence of tokens.** When it is a given sentence without a note: the tokens differ from
those of the sentence at most in their places, and text and places are those of the words. -/
theorem Sentence.ofTokens_eq_iff {s : Sentence} {tokens : List Token} (hnote : s.note = none) :
    ofTokens s.docid tokens = s ↔
      tokens.map Token.unplaced = s.tokens.map Token.unplaced ∧
      s.text = wordText (s.tokens.map Token.word) ∧
      s.tokens.map Token.span = (wordTokens (s.tokens.map Token.word)).map Token.span := by
  have hwords : inPlace tokens = s.tokens → tokens.map Token.word = s.tokens.map Token.word := by
    intro h
    rw [← h, map_inPlace (fun _ _ => rfl)]
  have hparts : ofTokens s.docid tokens = s ↔
      wordText (tokens.map Token.word) = s.text ∧ inPlace tokens = s.tokens := by
    obtain ⟨docid, text, others, note⟩ := s
    obtain rfl : note = none := hnote
    simp only [ofTokens, Sentence.mk.injEq, true_and, and_true]
  rw [hparts]
  constructor
  · rintro ⟨htext, htokens⟩
    obtain ⟨hunplaced, hspans⟩ := inPlace_eq_iff.mp htokens
    exact ⟨hunplaced, by rw [← hwords htokens, htext], hspans⟩
  · rintro ⟨hunplaced, htext, hspans⟩
    have htokens := inPlace_eq_iff.mpr ⟨hunplaced, hspans⟩
    exact ⟨by rw [hwords htokens, htext], htokens⟩

/-! ### Drafts -/

/-- **Sentences without a note.** What a draft has become when the sentence has no note. -/
theorem Draft.finish_eq_some_iff {draft : Draft} {s : Sentence} :
    draft.finish = some s ∧ s.note = none ↔
      draft.tokens ≠ [] ∧ draft.tokens.length ≤ tokenLimit ∧
        s = { docid := draft.docid, text := draft.text, tokens := draft.tokens } := by
  rw [finish]
  split
  · rename_i hlong
    constructor
    · rintro ⟨h, hnote⟩
      obtain rfl := Option.some.inj h
      cases hnote
    · rintro ⟨-, hshort, -⟩
      exact absurd hshort (Nat.not_le.mpr hlong)
  · rename_i hshort
    split
    · rename_i hne
      constructor
      · rintro ⟨h, -⟩
        exact ⟨hne, Nat.not_lt.mp hshort, (Option.some.inj h).symm⟩
      · rintro ⟨-, -, rfl⟩
        exact ⟨rfl, rfl⟩
    · rename_i hnil
      constructor
      · rintro ⟨h, hnote⟩
        split at h
        · obtain rfl := Option.some.inj h
          cases hnote
        · cases h
      · rintro ⟨hne, -⟩
        exact absurd hne hnil

/-- **Sentences with a note.** What a draft has become when the sentence has a note. -/
theorem Draft.finish_eq_noted_iff {draft : Draft} {s : Sentence} {note : Text} :
    draft.finish = some s ∧ s.note = some note ↔
      s = draft.noted note ∧
        (tokenLimit < draft.tokens.length ∧ note = skipNote draft.quoted ∨
          draft.tokens = [] ∧ draft.comments ≠ [] ∧ note = draft.comments) := by
  rw [finish]
  constructor
  · rintro ⟨h, hnote⟩
    split at h
    · rename_i hlong
      obtain rfl := Option.some.inj h
      obtain rfl := Option.some.inj hnote
      exact ⟨rfl, .inl ⟨hlong, rfl⟩⟩
    · split at h
      · obtain rfl := Option.some.inj h
        cases hnote
      · rename_i hnil
        split at h
        · rename_i hcomments
          obtain rfl := Option.some.inj h
          obtain rfl := Option.some.inj hnote
          exact ⟨rfl, .inr ⟨Decidable.not_not.mp hnil, hcomments, rfl⟩⟩
        · cases h
  · rintro ⟨rfl, ⟨hlong, rfl⟩ | ⟨hnil, hcomments, rfl⟩⟩
    · rw [if_pos hlong]
      exact ⟨rfl, rfl⟩
    · rw [hnil, List.length_nil, if_neg (Nat.not_lt_zero _), if_neg (fun hne => hne rfl),
        if_pos hcomments]
      exact ⟨rfl, rfl⟩

/-- **Dropped drafts.** A draft becomes nothing when it has neither tokens nor comments. -/
theorem Draft.finish_eq_none_iff {draft : Draft} :
    draft.finish = none ↔ draft.tokens = [] ∧ draft.comments = [] := by
  rw [finish]
  constructor
  · intro h
    split at h
    · cases h
    · split at h
      · cases h
      · rename_i hnil
        split at h
        · cases h
        · rename_i hcomments
          exact ⟨Decidable.not_not.mp hnil, Decidable.not_not.mp hcomments⟩
  · rintro ⟨htokens, hcomments⟩
    rw [htokens, hcomments, List.length_nil, if_neg (Nat.not_lt_zero _), if_neg (not_not_intro rfl),
      if_neg (not_not_intro rfl)]

/-- A sentence has the tokens of its draft or the one that stands in for them. -/
theorem Draft.forall_mem_tokens_of_finish {draft : Draft} {s : Sentence} {p : Token → Prop}
    (htokens : ∀ token ∈ draft.tokens, p token) (hstandIn : p draft.standIn)
    (hfinish : draft.finish = some s) : ∀ token ∈ s.tokens, p token := by
  cases hnote : s.note with
  | none =>
    obtain ⟨-, -, rfl⟩ := Draft.finish_eq_some_iff.mp ⟨hfinish, hnote⟩
    exact htokens
  | some note =>
    obtain ⟨rfl, -⟩ := Draft.finish_eq_noted_iff.mp ⟨hfinish, hnote⟩
    exact List.forall_mem_singleton.mpr hstandIn

end Corpus

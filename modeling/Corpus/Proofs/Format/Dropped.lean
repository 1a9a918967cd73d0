import Corpus.Format
import Corpus.Proofs.Conll.Notes
import Corpus.Proofs.English.Decorations

/-!
# Records that are dropped

A record that becomes no sentence is dropped without a message. This happens to records without content
and to no others, in every format.

* A record is dropped when its draft has neither tokens nor comments (`Draft.finish_eq_none_iff`).
* The lines of a tab-separated record give a row or a comment, but for silent ones: empty lines and
  ranges of ids.
* A line of text gives no words when it is made of spaces, in English also of decorations.
* By induction on the records of a stream, those with content have one sentence each, in their order, up
  to the first record that is refused.
-/

namespace Corpus

variable {options : Options} {docid : Option Text} {record line : Text}

/-! ### Tab-separated records -/

namespace Conll

/-- **Silent line.** It is empty, or its first field is a range of ids. -/
def IsSilent (line : Text) : Prop := line = [] ∨ IsIdRange (column 0 line)

instance (line : Text) : Decidable (IsSilent line) := inferInstanceAs (Decidable (_ ∨ _))

/-- A range of ids does not start with a hash sign. -/
theorem IsIdRange.not_hash {text : Text} (h : IsIdRange text) : ¬ ['#'] <+: text := by
  obtain ⟨low, high, rfl, ⟨hne, hdigits⟩, -⟩ := h
  obtain ⟨c, low, rfl⟩ := List.exists_cons_of_ne_nil hne
  intro hhash
  obtain rfl := (List.cons_prefix_cons.mp hhash).1
  exact absurd (hdigits '#' List.mem_cons_self) (by decide)

/-- A line has a comment when its first column starts with a hash sign. -/
theorem commentOf_eq_nil_iff : commentOf line = [] ↔ ¬ ['#'] <+: column 0 line := by
  unfold commentOf
  split
  · rename_i text htext
    obtain ⟨hcolumn, hhash⟩ := eq_column_of_ofText_eq_comment htext
    exact iff_of_false (by simp) (not_not_intro (hcolumn ▸ hhash))
  · rename_i hother
    exact iff_of_true rfl fun hhash => hother _ (ofText_of_hash hhash)

/-- **Silent lines** are neither rows nor comments. -/
theorem isSilent_iff : IsSilent line ↔ ¬ IsTokenLine line ∧ commentOf line = [] := by
  rw [commentOf_eq_nil_iff]
  constructor
  · rintro (rfl | hrange)
    · exact ⟨fun h => h.nonempty rfl, by decide⟩
    · exact ⟨fun h => h.not_range hrange, hrange.not_hash⟩
  · rintro ⟨htoken, hhash⟩
    by_contra hsilent
    obtain ⟨hne, hrange⟩ := not_or.mp hsilent
    exact htoken ⟨hne, hhash, hrange⟩

/-- Lines have no rows when none of them is a token line. -/
theorem readRows_eq_nil_iff {expected : Nat} {entries : List (Text × Nat)} :
    readRows expected entries = .ok [] ↔ ∀ entry ∈ entries, ¬ IsTokenLine entry.1 := by
  constructor
  · intro h
    have hnone : tokenLinesOf entries = [] := List.map_eq_nil_iff.mp (readRows_eq_ok h).1.symm
    simpa [tokenLinesOf] using hnone
  · intro h
    exact readRows_eq_nil h expected

/-- **Dropped records** are those of silent lines. -/
theorem read_eq_none_iff : read options docid record = .ok none ↔
    ∀ line ∈ List.splitOn '\n' record, IsSilent line := by
  have hdraft (rows : List Row) : (draft options docid record rows).finish = none ↔
      rows = [] ∧ comments record = [] := by
    rw [Draft.finish_eq_none_iff, tokens_draft_eq_nil_iff]
    rfl
  have hread : read options docid record = .ok none ↔
      readRows 1 (numberedLines record) = .ok [] ∧ comments record = [] := by
    simp only [read_eq_ok_iff, hdraft]
    constructor
    · rintro ⟨rows, hrows, rfl, hcomments⟩
      exact ⟨hrows, hcomments⟩
    · rintro ⟨hrows, hcomments⟩
      exact ⟨[], hrows, rfl, hcomments⟩
  have hlines : (numberedLines record).map Prod.fst = List.splitOn '\n' record :=
    List.zipIdx_map_fst ..
  calc read options docid record = .ok none
      ↔ (∀ entry ∈ numberedLines record, ¬ IsTokenLine entry.1) ∧ comments record = [] := by
        rw [hread, readRows_eq_nil_iff]
    _ ↔ (∀ line ∈ List.splitOn '\n' record, ¬ IsTokenLine line) ∧
          ∀ line ∈ List.splitOn '\n' record, commentOf line = [] := by
        rw [← hlines, List.forall_mem_map, hlines, comments, List.flatMap_eq_nil_iff]
    _ ↔ ∀ line ∈ List.splitOn '\n' record, IsSilent line := by
        simp only [isSilent_iff, forall_and]

end Conll

/-! ### All formats -/

namespace LineText

/-- Placed words without comments become nothing when there are none. -/
theorem finish_placed_eq_none_iff {gap : Nat} {words : List Text} {text : Text} :
    Draft.finish { docid, tokens := Token.placed gap 0 words, text } = none ↔ words = [] := by
  rw [Draft.finish_eq_none_iff, and_iff_left rfl, ← List.length_eq_zero_iff, Token.length_placed,
    List.length_eq_zero_iff]

theorem readTokenized_eq_none_iff : readTokenized docid record = none ↔ spacedWords record = [] :=
  finish_placed_eq_none_iff

theorem readCharacters_eq_none_iff : readCharacters docid record = none ↔ record = [] :=
  finish_placed_eq_none_iff.trans List.map_eq_nil_iff

end LineText

/-- **A record without content.** -/
def Format.IsVoid : Format → Text → Prop
  | conll, record => ∀ line ∈ List.splitOn '\n' record, Conll.IsSilent line
  | tokenized, record => record ⊆ [' ']
  | characters, record => record = []
  | english, record => record ⊆ English.blanks
  | lines, _ => False

instance (format : Format) (record : Text) : Decidable (format.IsVoid record) :=
  match format with
  | .conll => inferInstanceAs (Decidable (∀ line ∈ List.splitOn '\n' record, Conll.IsSilent line))
  | .tokenized => inferInstanceAs (Decidable (record ⊆ [' ']))
  | .characters => inferInstanceAs (Decidable (record = []))
  | .english => inferInstanceAs (Decidable (record ⊆ English.blanks))
  | .lines => inferInstanceAs (Decidable False)

namespace Codec

variable {codec : Codec}

/-- **Dropped records have no content**, and records without content are dropped. -/
theorem read_eq_none_iff : codec.read docid record = .ok none ↔ codec.format.IsVoid record := by
  obtain ⟨format, options⟩ := codec
  have hok (found : Option Sentence) : (.ok found : Except Error (Option Sentence)) = .ok none ↔
      found = none := by
    rw [Except.ok.injEq]
  cases format with
  | conll => exact Conll.read_eq_none_iff
  | tokenized =>
    exact (hok _).trans (LineText.readTokenized_eq_none_iff.trans English.spacedWords_eq_nil_iff)
  | characters => exact (hok _).trans LineText.readCharacters_eq_none_iff
  | english =>
    exact (hok _).trans
      (LineText.readTokenized_eq_none_iff.trans English.spacedWords_rewrite_eq_nil_iff)
  | lines => exact iff_of_false nofun id

/-- **Sentences of records**: one for every record with content, in the order of the records. -/
def AreSentencesOf (codec : Codec) (docid : Option Text) (records : List Text)
    (sentences : List Sentence) : Prop :=
  List.Forall₂ (fun record s => codec.read docid record = .ok (some s))
    (records.filter fun record => ¬ codec.format.IsVoid record) sentences

/-- **The end of a reading.** No record is left, or the first one left is refused. -/
def StopsAt (codec : Codec) (docid : Option Text) (fault : Option Error) : List Text → Prop
  | [] => fault = none
  | record :: _ => ∃ e, codec.read docid record = .error e ∧ fault = some e

/-- **Reading records** goes on until one is refused, and gives the sentences of the records before. -/
theorem exists_areSentencesOf_readAll (codec : Codec) (docid : Option Text) (records : List Text) :
    ∃ before after, records = before ++ after ∧
      codec.AreSentencesOf docid before (codec.readAll docid records).1 ∧
      codec.StopsAt docid (codec.readAll docid records).2 after := by
  induction records with
  | nil => exact ⟨[], [], rfl, .nil, rfl⟩
  | cons record records ih =>
    obtain ⟨before, after, rfl, hsentences, hstops⟩ := ih
    rw [readAll]
    cases hread : codec.read docid record with
    | error e => exact ⟨[], record :: (before ++ after), rfl, .nil, e, hread, rfl⟩
    | ok found =>
      refine ⟨record :: before, after, rfl, ?_, hstops⟩
      cases found with
      | none =>
        have hvoid : codec.format.IsVoid record := read_eq_none_iff.mp hread
        rw [AreSentencesOf, List.filter_cons_of_neg (by simpa using hvoid)]
        exact hsentences
      | some s =>
        have hcontent : ¬ codec.format.IsVoid record := fun hvoid =>
          nomatch hread.symm.trans (read_eq_none_iff.mpr hvoid)
        rw [AreSentencesOf, List.filter_cons_of_pos (by simpa using hcontent)]
        exact .cons hread hsentences

/-- **Only records without content are dropped.** A record is dropped exactly when it has no content. So
a stream is read as one sentence for every other record, in order, up to the first record that is
refused. -/
theorem drops_only_void (codec : Codec) (docid : Option Text) :
    (∀ record, codec.read docid record = .ok none ↔ codec.format.IsVoid record) ∧
      ∀ stream, ∃ before after, codec.records stream = before ++ after ∧
        codec.AreSentencesOf docid before (codec.readAll docid (codec.records stream)).1 ∧
        codec.StopsAt docid (codec.readAll docid (codec.records stream)).2 after :=
  ⟨fun _ => read_eq_none_iff, fun _ => exists_areSentencesOf_readAll codec docid _⟩

example : Format.english.IsVoid " ·♦ ".toList ∧ ¬ Format.english.IsVoid "·|".toList := by
  decide

end Codec

end Corpus

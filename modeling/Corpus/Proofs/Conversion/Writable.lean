import Corpus.Conversion
import Corpus.Proofs.Format.WellFormed

/-!
# What is read can be written

Writing fails for nothing but a number beyond the digit limit, and the numbers of a sentence that was
read keep to it.

* Heads were read within the limit, and are written as they were read or one less.
* The number of a token is at most a hundred.
* Only JSON shows where tokens stand. Its numbers are then at most the length of the text in bytes.
-/

namespace Corpus

open Conll (IsWritable)

/-! ### Heads -/

theorem isWritable_none : IsWritable none := by
  unfold IsWritable
  decide

/-- Words that are placed have no heads. -/
theorem isWritable_of_mem_placed {gap offset : Nat} {words : List Text} {token : Token}
    (h : token ∈ Token.placed gap offset words) : IsWritable token.head := by
  obtain ⟨word, -, start, last, rfl⟩ := Token.exists_of_mem_placed h
  exact isWritable_none

/-- Heads of a tab-separated record that was read are writable. -/
theorem Conll.isWritable_of_mem_tokens {options : Options} {docid : Option Text} {record : Text}
    {s : Sentence} (h : Conll.read options docid record = .ok (some s)) :
    ∀ token ∈ s.tokens, IsWritable token.head := by
  obtain ⟨rows, hrows, hfinish⟩ := Conll.read_eq_ok_iff.mp h
  refine Draft.forall_mem_tokens_of_finish ?_ ?_ hfinish
  · rw [Conll.tokens_draft]
    refine (forall_mem_inPlace_iff fun _ _ => Iff.rfl).mpr (List.forall_mem_map.mpr ?_)
    intro row hrow
    rw [Conll.head_encode]
    exact Conll.isWritable_token ((Conll.readRows_eq_ok hrows).2 row hrow)
  · have hhead : (Conll.encode options nounPlaceholder).head = none :=
      Conll.head_encode options nounPlaceholder
    exact (congrArg IsWritable hhead).mpr isWritable_none

/-- Sentences of placed words have no heads. -/
theorem isWritable_of_finish_placed {docid : Option Text} {gap : Nat} {words : List Text}
    {text : Text} {s : Sentence}
    (h : Draft.finish { docid, tokens := Token.placed gap 0 words, text } = some s) :
    ∀ token ∈ s.tokens, IsWritable token.head :=
  Draft.forall_mem_tokens_of_finish (fun _ htoken => isWritable_of_mem_placed htoken)
    isWritable_none h

/-- **Heads that were read are writable.** -/
theorem Codec.isWritable_of_mem_tokens {codec : Codec} {docid : Option Text} {record : Text}
    {s : Sentence} (h : codec.read docid record = .ok (some s)) :
    ∀ token ∈ s.tokens, IsWritable token.head := by
  obtain ⟨format, options⟩ := codec
  cases format with
  | conll => exact Conll.isWritable_of_mem_tokens h
  | tokenized =>
    have hread : LineText.readTokenized docid record = some s := Except.ok.inj h
    exact isWritable_of_finish_placed hread
  | characters =>
    have hread : LineText.readCharacters docid record = some s := Except.ok.inj h
    exact isWritable_of_finish_placed hread
  | english =>
    have hread : English.read docid record = some s := Except.ok.inj h
    rw [English.read] at hread
    exact isWritable_of_finish_placed hread
  | lines => cases h

/-! ### Numbers within the limit -/

/-- A number that can be written. -/
def Numeral.Fits (n : Int) : Prop := (Numeral.ofNat n.natAbs).length ≤ Numeral.digitLimit

theorem Numeral.Fits.mono {m n : Int} (h : Numeral.Fits n) (hle : m.natAbs ≤ n.natAbs) :
    Numeral.Fits m :=
  Nat.le_trans (Numeral.length_ofNat_le hle) h

/-- A head that is not negative is written when the next number is. -/
theorem fits_head {token : Token} (hproper : token.IsProper) (hhead : IsWritable token.head) :
    ∀ head ∈ token.head, Numeral.Fits head := by
  intro head hmem
  have hpos := hproper.head head hmem
  rw [Option.mem_def] at hmem
  rw [hmem] at hhead
  exact Numeral.Fits.mono (n := head + 1) hhead (by omega)

/-! ### Lines -/

namespace LineText

theorem exists_writtenToken {token : Token} (h : ∀ head ∈ token.head, Numeral.Fits head) :
    ∃ text, writtenToken token = .ok text := by
  cases hhead : token.head with
  | none =>
    refine ⟨token.word ++ (token.tag.map ('_' :: ·)).getD [] ++ [], ?_⟩
    rw [writtenToken, hhead]
    rfl
  | some head =>
    have hwrite : Numeral.write head = .ok (Numeral.ofInt head) := if_pos (h head hhead)
    refine ⟨token.word ++ (token.tag.map ('_' :: ·)).getD [] ++ '_' :: Numeral.ofInt head, ?_⟩
    rw [writtenToken, hhead]
    simp only [hwrite]
    rfl

/-- **Lines are written** when the heads fit. -/
theorem exists_write {s : Sentence}
    (h : ∀ token ∈ s.tokens, ∀ head ∈ token.head, Numeral.Fits head) :
    ∃ text, write s = .ok text := by
  have hwords : ∃ words, writtenTokens s.tokens = .ok words := by
    generalize s.tokens = tokens at h
    induction tokens with
    | nil => exact ⟨[], rfl⟩
    | cons token tokens ih =>
      obtain ⟨htoken, htokens⟩ := List.forall_mem_cons.mp h
      obtain ⟨word, hword⟩ := exists_writtenToken htoken
      obtain ⟨words, hwords⟩ := ih htokens
      exact ⟨word :: words, by rw [writtenTokens, hword, hwords]; rfl⟩
  obtain ⟨words, hwords⟩ := hwords
  exact ⟨_, by rw [write, hwords]⟩

end LineText

/-! ### JSON -/

namespace Json

theorem fits_integer {n : Int} : (integer n).fits = true ↔ Numeral.Fits n := decide_eq_true_iff

theorem fitItems_iff {items : List Json} :
    fitItems items = true ↔ ∀ item ∈ items, item.fits = true := by
  induction items with
  | nil => simp [fitItems]
  | cons item items ih => simp [fitItems, ih]

theorem fitEntries_iff {entries : List (RawText × Json)} :
    fitEntries entries = true ↔ ∀ entry ∈ entries, entry.2.fits = true := by
  induction entries with
  | nil => simp [fitEntries]
  | cons entry entries ih => simp [fitEntries, ih]

theorem fits_array {items : List Json} :
    (array items).fits = true ↔ ∀ item ∈ items, item.fits = true := fitItems_iff

theorem fits_object {entries : List (RawText × Json)} :
    (object entries).fits = true ↔ ∀ entry ∈ entries, entry.2.fits = true := fitEntries_iff

end Json

/-- An optional entry fits when its value does. -/
theorem fits_of_mem_optionalEntry {key : String} {value : Option Json} {entry : RawText × Json}
    (h : ∀ v ∈ value, v.fits = true) (hmem : entry ∈ optionalEntry key value) :
    entry.2.fits = true := by
  obtain ⟨v, hv, rfl⟩ := List.mem_map.mp hmem
  exact h v (Option.mem_toList.mp hv)

theorem fits_ofText_of_mem {text : Option Text} : ∀ v ∈ text.map Json.ofText, v.fits = true := by
  intro v hv
  obtain ⟨text, -, rfl⟩ := Option.map_eq_some_iff.mp hv
  rfl

/-- **The entries of a token fit** when its place and its head do. -/
theorem fits_of_mem_entries {token : Token} {entry : RawText × Json}
    (hstart : Numeral.Fits token.start) (hlast : Numeral.Fits token.last)
    (hhead : ∀ head ∈ token.head, Numeral.Fits head) (hmem : entry ∈ token.entries) :
    entry.2.fits = true := by
  simp only [Token.entries, List.append_assoc, List.mem_append, List.mem_cons, List.not_mem_nil,
    or_false] at hmem
  rcases hmem with (rfl | rfl | rfl) | hmem | hmem | hmem | hmem | hmem
  · rfl
  · exact Json.fits_integer.mpr hstart
  · exact Json.fits_integer.mpr hlast
  · exact fits_of_mem_optionalEntry fits_ofText_of_mem hmem
  · exact fits_of_mem_optionalEntry fits_ofText_of_mem hmem
  · exact fits_of_mem_optionalEntry fits_ofText_of_mem hmem
  · refine fits_of_mem_optionalEntry (fun v hv => ?_) hmem
    obtain ⟨head, hhead', rfl⟩ := Option.map_eq_some_iff.mp hv
    exact Json.fits_integer.mpr (hhead head hhead')
  · split at hmem
    · cases hmem
    · rw [List.mem_singleton.mp hmem]
      refine Json.fits_array.mpr (List.forall_mem_map.mpr fun feature _ => ?_)
      rfl

/-- **A sentence is shown as JSON** when the places and heads of its tokens fit and the number of
its tokens does. -/
theorem fits_numberedView {s : Sentence} (hlength : s.tokens.length ≤ 100)
    (h : ∀ token ∈ s.tokens, Numeral.Fits token.start ∧ Numeral.Fits token.last ∧
      ∀ head ∈ token.head, Numeral.Fits head) : s.numberedView.fits = true := by
  have htokens : ∀ entry ∈ s.tokens.zipIdx 1, (entry.1.numberedView entry.2).fits = true := by
    intro entry hentry
    obtain ⟨hstart, hlast, hhead⟩ := h entry.1 (List.fst_mem_of_mem_zipIdx hentry)
    have hnumber : entry.2 ≤ 100 := by
      have hlt := List.snd_lt_add_of_mem_zipIdx hentry
      omega
    refine Json.fits_object.mpr (List.forall_mem_append.mpr ⟨?_, ?_⟩)
    · exact fun _ hmem => fits_of_mem_entries hstart hlast hhead hmem
    · refine List.forall_mem_singleton.mpr (Json.fits_integer.mpr ?_)
      exact Nat.le_trans (Numeral.length_ofNat_le (by omega : (entry.2 : Int).natAbs ≤ 100)) (by decide)
  refine Json.fits_object.mpr (List.forall_mem_append.mpr ⟨?_, ?_⟩)
  · refine List.forall_mem_cons.mpr ⟨?_, List.forall_mem_cons.mpr ⟨rfl, ?_⟩⟩
    · cases s.docid <;> rfl
    · exact List.forall_mem_singleton.mpr
        (Json.fits_array.mpr (List.forall_mem_map.mpr htokens))
  · exact fun _ hmem => fits_of_mem_optionalEntry fits_ofText_of_mem hmem

/-- The place of a token in a text fits when the length of the text does. -/
theorem fits_place {text : Text} {token : Token} (h : token.Covers text)
    (htext : Numeral.Fits (Utf8.encode text).length) :
    Numeral.Fits token.start ∧ Numeral.Fits token.last := by
  have hstart := h.start_nonneg
  have hlast := h.last_lt
  have heq := h.last_eq
  refine ⟨htext.mono (by omega), ?_⟩
  by_cases hneg : token.last < 0
  · exact Numeral.Fits.mono (n := 1) (by unfold Numeral.Fits; decide) (by omega)
  · exact htext.mono (by omega)

/-! ### All targets -/

/-- **What was read can be written.** As JSON this needs that the length of the text in bytes is a
number within the digit limit. -/
theorem Target.exists_write {target : Target} {codec : Codec} {docid : Option Text}
    {record : Text} {s : Sentence} (hread : codec.read docid record = .ok (some s))
    (hsize : target = .json → s.text.byteLength < 10 ^ Numeral.digitLimit) :
    ∃ text, target.write s = .ok text := by
  obtain ⟨draft, -, hsound, hfinish⟩ := Codec.exists_sound_draft hread
  obtain ⟨-, hwellFormed, -⟩ := hsound.finish hfinish
  have hheads := Codec.isWritable_of_mem_tokens hread
  have hfit : ∀ token ∈ s.tokens, ∀ head ∈ token.head, Numeral.Fits head :=
    fun token htoken => fits_head (hwellFormed.proper token htoken) (hheads token htoken)
  cases target with
  | json =>
    have htext : Numeral.Fits (Utf8.encode s.text).length := by
      rw [Utf8.length_encode]
      exact (Numeral.length_ofNat_le_iff (by decide)).mpr (hsize rfl)
    have hview : s.numberedView.fits = true :=
      fits_numberedView hwellFormed.length_le fun token htoken =>
        have hplace := fits_place (hwellFormed.aligned.covers token htoken) htext
        ⟨hplace.1, hplace.2, hfit token htoken⟩
    exact ⟨_, by rw [Target.write, Json.writtenWithin, if_pos hview]⟩
  | format codec =>
    obtain ⟨format, options⟩ := codec
    cases format with
    | conll =>
      cases hnote : s.note with
      | none => exact ⟨_, Conll.write_eq_ok hnote hheads⟩
      | some note => exact ⟨note ++ ['\n'], by rw [Target.write, Codec.write, Conll.write, hnote]⟩
    | tokenized => exact LineText.exists_write hfit
    | characters => exact LineText.exists_write hfit
    | english => exact LineText.exists_write hfit
    | lines => exact LineText.exists_write hfit

end Corpus

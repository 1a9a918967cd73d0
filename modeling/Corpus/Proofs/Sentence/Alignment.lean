import Corpus.Proofs.Sentence.Draft
import Corpus.Text.Utf8
import Mathlib.Data.List.Chain

/-!
# Tokens and the bytes of the text

* A token covers its word when the bytes of its span are those of the word. An empty word is covered
  by a span that ends before it starts.
* Tokens are aligned when the first starts at byte 0, each covers its word, each next one starts after
  a fixed number of spaces, and the last ends where the text ends.
* Tokens with the spans of placed words are aligned with the text in which the words are joined. The
  text is taken apart at its front: what stands before the first word is part of the induction.
-/

namespace Corpus

/-! ### Bytes -/

/-- **The bytes of a span**, from `start` to `last`, both included. -/
def bytesBetween (start last : Int) (bytes : List UInt8) : List UInt8 :=
  (bytes.drop start.toNat).take (last + 1 - start).toNat

theorem bytesBetween_append (a b c : List UInt8) :
    bytesBetween a.length (a.length + b.length - 1) (a ++ (b ++ c)) = b := by
  have hlength : ((a.length : Int) + b.length - 1 + 1 - a.length).toNat = b.length := by omega
  rw [bytesBetween, hlength, Int.toNat_natCast, List.drop_left, List.take_left]

namespace Utf8

theorem encode_append (a b : Text) : encode (a ++ b) = encode a ++ encode b := List.flatMap_append

/-- A space is one byte. -/
theorem encode_replicate_space (n : Nat) :
    encode (List.replicate n ' ') = List.replicate n 0x20 := by
  induction n with
  | zero => rfl
  | succ n ih =>
    rw [List.replicate_succ, List.replicate_succ, ← ih]
    rfl

/-- The bytes of a part of a text. -/
theorem bytesBetween_encode_append (a b c : Text) :
    bytesBetween a.byteLength (a.byteLength + b.byteLength - 1) (encode (a ++ (b ++ c))) =
      encode b := by
  rw [encode_append, encode_append, ← length_encode a, ← length_encode b]
  exact bytesBetween_append (encode a) (encode b) (encode c)

end Utf8

/-! ### Aligned tokens -/

/-- **Covering a word.** The span of the token lies in the text, and its bytes are those of the
word. -/
structure Token.Covers (text : Text) (token : Token) : Prop where
  start_nonneg : 0 ≤ token.start
  last_lt : token.last < (Utf8.encode text).length
  last_eq : token.last = token.start + (Utf8.encode token.word).length - 1
  bytes : bytesBetween token.start token.last (Utf8.encode text) = Utf8.encode token.word

/-- **Following.** The second token starts `gap` bytes after the end of the first, and these bytes are
spaces. -/
structure Token.Follows (gap : Nat) (text : Text) (a b : Token) : Prop where
  start : b.start = a.last + 1 + gap
  between : bytesBetween (a.last + 1) (b.start - 1) (Utf8.encode text) = List.replicate gap 0x20

/-- **Aligned tokens.** -/
structure AreAligned (gap : Nat) (text : Text) (tokens : List Token) : Prop where
  first : ∀ token ∈ tokens.head?, token.start = 0
  covers : ∀ token ∈ tokens, token.Covers text
  follows : tokens.IsChain (Token.Follows gap text)
  last : ∀ token ∈ tokens.getLast?, token.last + 1 = (Utf8.encode text).length

/-! ### Placed words -/

/-- **The text of spread words.** `gap` spaces between neighbours. -/
def spreadText (gap : Nat) (words : List Text) : Text :=
  Text.joined (List.replicate gap ' ') words

/-- **Placed tokens.** The spans are those of the words of the tokens, placed from `offset` on. -/
def ArePlaced (gap offset : Nat) (tokens : List Token) : Prop :=
  tokens.map Token.span = (Token.placed gap offset (tokens.map Token.word)).map Token.span

variable {gap : Nat} {token next : Token} {tokens : List Token}

theorem arePlaced_cons {offset : Nat} :
    ArePlaced gap offset (token :: tokens) ↔
      (token.start = offset ∧ token.last = (offset : Int) + token.word.byteLength - 1) ∧
        ArePlaced gap (offset + token.word.byteLength + gap) tokens := by
  simp only [ArePlaced, List.map_cons, Token.placed, List.cons.injEq, Token.span, Prod.mk.injEq]

theorem spreadText_cons_cons (gap : Nat) (word next : Text) (words : List Text) :
    spreadText gap (word :: next :: words) =
      word ++ (List.replicate gap ' ' ++ spreadText gap (next :: words)) := by
  rw [spreadText, Text.joined, List.intercalate_cons_cons, List.append_assoc]
  rfl

/-- A spread text starts with its first word. -/
theorem exists_spreadText_cons (gap : Nat) (word : Text) (words : List Text) :
    ∃ rest, spreadText gap (word :: words) = word ++ rest := by
  cases words with
  | nil => exact ⟨[], by simp [spreadText, Text.joined]⟩
  | cons next words => exact ⟨_, spreadText_cons_cons gap word next words⟩

/-- The text before the second of placed tokens, in two ways. -/
theorem append_spreadText_cons (before : Text) (gap : Nat) (word next : Text) (words : List Text) :
    before ++ spreadText gap (word :: next :: words) =
      before ++ word ++ List.replicate gap ' ' ++ spreadText gap (next :: words) := by
  rw [spreadText_cons_cons]
  simp only [List.append_assoc]

/-- Where the second of placed tokens starts. -/
theorem byteLength_before (before word : Text) (gap : Nat) :
    (before ++ word ++ List.replicate gap ' ').byteLength =
      before.byteLength + word.byteLength + gap := by
  rw [← Utf8.length_encode, Utf8.encode_append, Utf8.encode_append, Utf8.encode_replicate_space]
  simp only [List.length_append, Utf8.length_encode, List.length_replicate]

/-- The first of placed tokens covers its word. -/
theorem covers_of_arePlaced_cons (before : Text)
    (h : ArePlaced gap before.byteLength (token :: tokens)) :
    token.Covers (before ++ spreadText gap ((token :: tokens).map Token.word)) := by
  obtain ⟨⟨hstart, hlast⟩, -⟩ := arePlaced_cons.mp h
  obtain ⟨rest, htext⟩ := exists_spreadText_cons gap token.word (tokens.map Token.word)
  rw [List.map_cons, htext]
  refine ⟨?_, ?_, ?_, ?_⟩
  · omega
  · rw [hlast, Utf8.length_encode, Text.byteLength_append, Text.byteLength_append]
    omega
  · rw [hlast, hstart, Utf8.length_encode]
  · rw [hlast, hstart]
    exact Utf8.bytesBetween_encode_append before token.word rest

/-- **Placed tokens cover their words.** -/
theorem covers_of_arePlaced (before : Text) (h : ArePlaced gap before.byteLength tokens) :
    ∀ token ∈ tokens, token.Covers (before ++ spreadText gap (tokens.map Token.word)) := by
  induction tokens generalizing before with
  | nil => exact fun _ hmem => absurd hmem List.not_mem_nil
  | cons token tokens ih =>
    refine List.forall_mem_cons.mpr ⟨covers_of_arePlaced_cons before h, ?_⟩
    cases tokens with
    | nil => exact fun _ hmem => absurd hmem List.not_mem_nil
    | cons next tokens =>
      have hrest := (arePlaced_cons.mp h).2
      rw [← byteLength_before] at hrest
      rw [List.map_cons, List.map_cons, append_spreadText_cons]
      exact ih _ hrest

/-- The second of placed tokens follows the first. -/
theorem follows_of_arePlaced_cons_cons (before : Text)
    (h : ArePlaced gap before.byteLength (token :: next :: tokens)) :
    token.Follows gap (before ++ spreadText gap ((token :: next :: tokens).map Token.word)) next := by
  obtain ⟨⟨hstart, hlast⟩, hrest⟩ := arePlaced_cons.mp h
  obtain ⟨⟨hnext, -⟩, -⟩ := arePlaced_cons.mp hrest
  refine ⟨by omega, ?_⟩
  have hfrom : token.last + 1 = ((before ++ token.word).byteLength : Int) := by
    rw [hlast, Text.byteLength_append]
    omega
  have hto : next.start - 1 =
      ((before ++ token.word).byteLength : Int) + Text.byteLength (List.replicate gap ' ') - 1 := by
    rw [hnext, ← byteLength_before, Text.byteLength_append]
    omega
  rw [hfrom, hto, List.map_cons, List.map_cons, spreadText_cons_cons, ← List.append_assoc,
    Utf8.bytesBetween_encode_append, Utf8.encode_replicate_space]

/-- **Placed tokens follow one another.** -/
theorem isChain_of_arePlaced (before : Text) (h : ArePlaced gap before.byteLength tokens) :
    tokens.IsChain (Token.Follows gap (before ++ spreadText gap (tokens.map Token.word))) := by
  induction tokens generalizing before with
  | nil => exact .nil
  | cons token tokens ih =>
    cases tokens with
    | nil => exact .singleton _
    | cons next tokens =>
      refine .cons_cons (follows_of_arePlaced_cons_cons before h) ?_
      have hrest := (arePlaced_cons.mp h).2
      rw [← byteLength_before] at hrest
      rw [List.map_cons, List.map_cons, append_spreadText_cons]
      exact ih _ hrest

/-- **The last of placed tokens ends where the text ends.** -/
theorem last_of_arePlaced (before : Text) (h : ArePlaced gap before.byteLength tokens) :
    ∀ token ∈ tokens.getLast?, token.last + 1 =
      (Utf8.encode (before ++ spreadText gap (tokens.map Token.word))).length := by
  induction tokens generalizing before with
  | nil => nofun
  | cons token tokens ih =>
    cases tokens with
    | nil =>
      intro last hlast
      obtain rfl : token = last := Option.some.inj hlast
      obtain ⟨⟨-, hlast⟩, -⟩ := arePlaced_cons.mp h
      simp only [List.map_cons, List.map_nil, spreadText, Text.joined, List.intercalate_singleton,
        Utf8.length_encode, Text.byteLength_append]
      omega
    | cons next tokens =>
      have hrest := (arePlaced_cons.mp h).2
      rw [← byteLength_before] at hrest
      rw [List.map_cons, List.map_cons, append_spreadText_cons, List.getLast?_cons_cons]
      exact ih _ hrest

/-- **Placed tokens are aligned** with the text of their words. -/
theorem areAligned_of_arePlaced (h : ArePlaced gap 0 tokens) :
    AreAligned gap (spreadText gap (tokens.map Token.word)) tokens where
  first := by
    cases tokens with
    | nil => nofun
    | cons token tokens =>
      intro first hfirst
      obtain rfl : token = first := Option.some.inj hfirst
      exact (arePlaced_cons.mp h).1.1
  covers := covers_of_arePlaced [] h
  follows := isChain_of_arePlaced [] h
  last := last_of_arePlaced [] h

/-- Words placed in their text are placed tokens. -/
theorem arePlaced_placed (gap offset : Nat) (words : List Text) :
    ArePlaced gap offset (Token.placed gap offset words) := by
  rw [ArePlaced, Token.map_word_placed]

/-- Tokens in place are placed tokens. -/
theorem arePlaced_inPlace (tokens : List Token) : ArePlaced 1 0 (inPlace tokens) := by
  rw [ArePlaced, map_span_inPlace, map_inPlace (f := Token.word) fun _ _ => rfl]
  rfl

end Corpus

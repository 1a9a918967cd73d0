import Corpus.Conll.Encoding
import Corpus.Proofs.Sentence.Draft

/-!
# What the field encodings touch

Encoding and decoding work on the category, the tag and the attributes of a token. They keep its
frame, which is the rest of it, and do not look at its place.
-/

namespace Corpus

/-- The frame of a token: all but its category, its tag and its attributes. -/
def Token.frame (token : Token) : Text × (Int × Int) × Option Text × Option Int :=
  (token.word, token.span, token.label, token.head)

namespace Conll

variable (options : Options) (token : Token)

/-! ### The frame -/

@[simp] theorem frame_joinCategory : (joinCategory token).frame = token.frame := rfl

@[simp] theorem frame_splitCategory : (splitCategory token).frame = token.frame := by
  rw [splitCategory]
  split <;> rfl

@[simp] theorem frame_addPos : (addPos token).frame = token.frame := by
  rw [addPos]
  split <;> rfl

@[simp] theorem frame_removePos : (removePos token).frame = token.frame := by
  rw [removePos]
  split <;> rfl

/-- **Encoding keeps the frame.** -/
theorem frame_encode : (encode options token).frame = token.frame := by
  obtain ⟨join, add⟩ := options
  cases join <;> cases add <;> simp [encode]

/-- **Decoding keeps the frame.** -/
theorem frame_decode : (decode options token).frame = token.frame := by
  obtain ⟨join, add⟩ := options
  cases join <;> cases add <;> simp [decode]

theorem word_encode : (encode options token).word = token.word :=
  congrArg (fun frame => frame.1) (frame_encode options token)

theorem head_encode : (encode options token).head = token.head :=
  congrArg (fun frame => frame.2.2.2) (frame_encode options token)

theorem head_decode : (decode options token).head = token.head :=
  congrArg (fun frame => frame.2.2.2) (frame_decode options token)

/-! ### The place -/

variable (place : Token)

@[simp] theorem splitCategory_movedTo :
    splitCategory (place.movedTo token) = place.movedTo (splitCategory token) := by
  unfold splitCategory Token.movedTo
  cases Text.breakOn categorySeparator (token.tag.getD []) <;> rfl

@[simp] theorem removePos_movedTo :
    removePos (place.movedTo token) = place.movedTo (removePos token) := by
  unfold removePos Token.movedTo
  split <;> rfl

/-- **Decoding does not look at the place.** -/
theorem decode_movedTo :
    decode options (place.movedTo token) = place.movedTo (decode options token) := by
  obtain ⟨join, add⟩ := options
  cases join <;> cases add <;> simp [decode]

end Conll

end Corpus

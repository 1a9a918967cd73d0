import Corpus.English.Pattern

/-!
# The rules of English tokenization

Two tables, applied in order.

* `preprocessing` writes punctuation of many kinds in ASCII and drops decorations.
* `tokenization` separates what is a token of its own by spaces, in the way of the Penn Treebank:
  quotation marks get a direction, brackets a name, and contractions are taken apart. A period is
  separated at the end of the text only.

The tables hold three rules that change nothing where they stand (the double quote for itself, the
apostrophe a second time and the empty pattern), and four that find nothing because of a rule before
them (the names of the square and curly brackets).
-/

namespace Corpus.English

/-- The pattern that matches the empty text everywhere, replaced by nothing. -/
def nothing : Rule := { pattern := {}, replacement := [] }

/-- **Preprocessing.** -/
def preprocessing : List Rule :=
  -- Punctuation
  [replace "’" "\x27",
   replace "…" "...",
   replace "---" "--",
   replace "—" "--",
   replace "–" "--",
   replace "，" ",",
   replace "。" ".",
   replace "！" "!",
   replace "？" "?",
   replace "：" ":",
   replace "；" ";",
   replace "＆" "&",
   -- Brackets
   replace "[" "(",
   replace "]" ")",
   replace "\x7b" "(",
   replace "\x7d" ")",
   replace "【" "(",
   replace "】" ")",
   replace "（" "(",
   replace "）" ")",
   -- Quotation marks
   replace "\x22" "\x22",
   replace "″" "\x22",
   replace "“" "\x22",
   replace "„" "\x22",
   replace "‵‵" "\x22",
   replace "”" "\x22",
   replace "’" "\x22",
   replace "‘" "\x22",
   replace "′′" "\x22",
   replace "‹" "\x22",
   replace "›" "\x22",
   replace "«" "\x22",
   replace "»" "\x22",
   -- Decorations
   nothing,
   replace "·" "",
   replace "•" "",
   replace "●" "",
   replace "▪" "",
   replace "■" "",
   replace "□" "",
   replace "❑" "",
   replace "◆" "",
   replace "★" "",
   replace "＊" "",
   replace "♦" ""]

/-- **Tokenization.** -/
def tokenization : List Rule :=
  -- Opening quotation marks
  [{ pattern := { fromStart := true, items := word "\x22" }, replacement := [put "`` "] },
   { pattern := { items := oneOf " ([\x7b<" :: word "\x22" }, replacement := [.item 0, put " `` "] },
   -- Punctuation; only the last period is separated
   replace "..." " ... ",
   isolate ",;:@#$%&",
   { pattern :=
      { items := [noneOf ".", oneOf ".", manyOf "])\x7d>\x22\x27", manyOf " "], toEnd := true }
     replacement := [.item 0, put " ", .item 1, .item 2, put " "] },
   isolate "?!",
   -- Brackets
   isolate "][()\x7b\x7d<>",
   replace "(" "-LRB-",
   replace ")" "-RRB-",
   replace "]" "-LSB-",
   replace "]" "-RSB-",
   replace "\x7b" "-LCB-",
   replace "\x7d" "-RCB-",
   replace "--" " -- ",
   -- A space at either end, so that every token below has one on either side
   { pattern := { toEnd := true }, replacement := [put " "] },
   { pattern := { fromStart := true }, replacement := [put " "] },
   -- Closing quotation marks
   replace "\x22" " \x27\x27 ",
   { pattern := { items := noneOf "\x27" :: word "\x27 " }, replacement := [.item 0, put " \x27 "] },
   -- Contractions
   contraction "\x27" "sSmMdD" " " " \x27" " ",
   replace "\x27ll " " \x27ll ",
   replace "\x27re " " \x27re ",
   replace "\x27ve " " \x27ve ",
   replace "n\x27t " " n\x27t ",
   replace "\x27LL " " \x27LL ",
   replace "\x27RE " " \x27RE ",
   replace "\x27VE " " \x27VE ",
   replace "N\x27T " " N\x27T ",
   contraction " " "Cc" "annot " " " "an not ",
   contraction " " "Dd" "\x27ye " " " "\x27 ye ",
   contraction " " "Gg" "imme " " " "im me ",
   contraction " " "Gg" "onna " " " "on na ",
   contraction " " "Gg" "otta " " " "ot ta ",
   contraction " " "Ll" "emme " " " "em me ",
   contraction " " "Mm" "ore\x27n " " " "ore \x27n ",
   contraction " \x27" "Tt" "is " " \x27" " is ",
   contraction " \x27" "Tt" "was " " \x27" " was ",
   contraction " " "Ww" "anna " " " "an na ",
   contraction " " "Ww" "haddya " " " "ha dd ya ",
   contraction " " "Ww" "hatcha " " " "ha t cha ",
   -- One space between tokens and none in front
   { pattern := { items := word " " ++ [manyOf " "] }, replacement := [put " "] },
   { pattern := { fromStart := true, items := [manyOf " "] }, replacement := [] }]

/-- **Rewriting.** A text with its tokens between spaces. -/
def rewrite (text : Text) : Text := applyRules tokenization (applyRules preprocessing text)

end Corpus.English

import Reckon.Text.Mark
import Reckon.Text.Pictograph

/-!
# Clusters of characters

What is drawn as one character may be written as several: a letter with its
marks, the parts of a syllable, pictures that are joined, two letters that make
a flag. A text is split into such clusters from left to right. Where one ends is
decided by the next character and by what the cluster ends with so far.
-/

namespace Reckon.Text

/-- How a character joins what stands before it. -/
inductive Joining where
  | other
  | carriageReturn
  | lineFeed
  | control
  | extending
  | joiner
  | spacing
  | leading
  | consonant
  | vowel
  | finalConsonant
  | openSyllable
  | closedSyllable
  | pictograph
  | flagLetter
  deriving DecidableEq, Repr

/-- The code points of the controls other than the first 32, as ascending ranges with both ends
    included. -/
def breakingRanges : Ranges :=
  [(0x7F, 0x9F), (0xAD, 0xAD), (0x61C, 0x61C), (0x180E, 0x180E), (0x200B, 0x200B),
    (0x200E, 0x200F), (0x2028, 0x202E), (0x2060, 0x206F), (0xFEFF, 0xFEFF), (0xFFF0, 0xFFFB),
    (0x13430, 0x13438), (0x1BCA0, 0x1BCA3), (0x1D173, 0x1D17A), (0xE0000, 0xE001F),
    (0xE0080, 0xE00FF), (0xE01F0, 0xE0FFF)]

/-- The code points of the signs that stand before what they belong to, as ascending ranges with
    both ends included. -/
def leadingRanges : Ranges :=
  [(0x600, 0x605), (0x6DD, 0x6DD), (0x70F, 0x70F), (0x8E2, 0x8E2), (0xD4E, 0xD4E),
    (0x110BD, 0x110BD), (0x110CD, 0x110CD), (0x111C2, 0x111C3), (0x11A3A, 0x11A3A),
    (0x11A84, 0x11A89), (0x11D46, 0x11D46)]

/-- The syllables of the Korean script that are characters of their own: an open one, then those
    that close it with one of 27 consonants. -/
def Joining.ofSyllable (code : Nat) : Joining :=
  if (code - 0xAC00) % 28 = 0 then .openSyllable else .closedSyllable

/-- How a character joins what stands before it. -/
def Joining.ofChar (c : Char) : Joining :=
  if c = '\r' then .carriageReturn
  else if c = '\n' then .lineFeed
  else if c.toNat < 0x20 then .control
  else if c.toNat < 0x7F then .other
  else if c.toNat = 0x200D then .joiner
  else if Ranges.contains breakingRanges c then .control
  else if isExtending c then .extending
  else if isSpacing c then .spacing
  else if Ranges.contains leadingRanges c then .leading
  else if Ranges.contains [(0x1100, 0x115F), (0xA960, 0xA97C)] c then .consonant
  else if Ranges.contains [(0x1160, 0x11A7), (0xD7B0, 0xD7C6)] c then .vowel
  else if Ranges.contains [(0x11A8, 0x11FF), (0xD7CB, 0xD7FB)] c then .finalConsonant
  else if Ranges.contains [(0xAC00, 0xD7A3)] c then .ofSyllable c.toNat
  else if Ranges.contains [(0x1F1E6, 0x1F1FF)] c then .flagLetter
  else if isPictograph c then .pictograph
  else .other

/-- What a cluster ends with. -/
inductive Ending where
  | other
  | carriageReturn
  | control
  | leading
  | consonant
  | vowel
  | finalConsonant
  | pictograph
  | joinedPictograph
  | halfFlag
  | flag
  deriving DecidableEq, Repr

/-- What a cluster ends with that a character begins. -/
def Joining.ending : Joining → Ending
  | .carriageReturn => .carriageReturn
  | .lineFeed | .control => .control
  | .leading => .leading
  | .consonant => .consonant
  | .vowel | .openSyllable => .vowel
  | .finalConsonant | .closedSyllable => .finalConsonant
  | .pictograph => .pictograph
  | .flagLetter => .halfFlag
  | .other | .extending | .joiner | .spacing => .other

/-- What a character does after a cluster: it joins it or begins another. The cluster that it
    stands in then has the given ending. -/
inductive Step where
  | joins (ending : Ending)
  | begins (ending : Ending)
  deriving DecidableEq, Repr

/-- What the next character does. A control ends its cluster, but for a line feed after a carriage
    return. A character right after a control or after a leading sign counts as any other, so that
    nothing but marks can join it. -/
def Ending.next : Ending → Joining → Step
  | .carriageReturn, .lineFeed => .joins .other
  | .carriageReturn, _ | .control, _ => .begins .other
  | _, .carriageReturn => .begins .carriageReturn
  | _, .lineFeed | _, .control => .begins .control
  | .consonant, .consonant => .joins .consonant
  | .consonant, .vowel | .consonant, .openSyllable | .vowel, .vowel => .joins .vowel
  | .consonant, .closedSyllable => .joins .finalConsonant
  | .vowel, .finalConsonant | .finalConsonant, .finalConsonant => .joins .finalConsonant
  | .pictograph, .extending => .joins .pictograph
  | .pictograph, .joiner => .joins .joinedPictograph
  | .joinedPictograph, .pictograph => .joins .pictograph
  | .halfFlag, .flagLetter => .joins .flag
  | .leading, _ => .joins .other
  | _, .extending | _, .joiner | _, .spacing => .joins .other
  | _, joining => .begins joining.ending

/-- The clusters of a text, where `cluster` in reverse is what the first holds already. -/
def clustersFrom (cluster : List Char) (ending : Ending) : List Char → List (List Char)
  | [] => [cluster.reverse]
  | c :: rest =>
    match ending.next (Joining.ofChar c) with
    | .joins ending => clustersFrom (c :: cluster) ending rest
    | .begins ending => cluster.reverse :: clustersFrom [c] ending rest

/-- The clusters of a text, from left to right. -/
def clusters : List Char → List (List Char)
  | [] => []
  | c :: rest => clustersFrom [c] (Joining.ofChar c).ending rest

end Reckon.Text

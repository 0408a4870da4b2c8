import GraphWarden.CharSet.Property
import GraphWarden.CharSet.Script

/-!
# Breaks between graphemes, words and sentences

Where a grapheme, a word or a sentence ends is told by the classes of the
characters around.  Most classes follow from general categories, properties and
scripts.
-/

namespace GraphWarden.CharSet

/-- The carriage return. -/
def carriageReturn : CharSet := single 0xD

/-- The line feed. -/
def lineFeed : CharSet := single 0xA

/-- The joiner of emoji. -/
def zeroWidthJoiner : CharSet := single 0x200D

/-- Characters that extend the grapheme before them. -/
def graphemeExtending : CharSet :=
  (graphemeExtend.union emojiModifier).diff zeroWidthJoiner

/-- Characters that stand alone in graphemes. -/
def graphemeControl : CharSet :=
  (unionAll [lineSeparator, paragraphSeparator, control, format,
    unassigned.inter defaultIgnorableCodePoint]).diff
    (unionAll [ofTable ["A D 200C-200D"], prependedConcatenationMark, graphemeExtending])

/-- Characters that go with the one after them. -/
def graphemePrepend : CharSet :=
  ofTable ["600-605 6DD 70F 890-891 8E2 D4E 110BD 110CD 111C2-111C3 113D1 1193F 11941 11A3A",
     "11A84-11A89 11D46 11F02"]

/-- Marks with room of their own that go with the character before them. -/
def graphemeSpacingMark : CharSet :=
  ((spacingMark.union (ofTable ["E33 EB3"])).diff graphemeExtending).diff (ofTable
    ["102B-102C 1038 1062-1064 1067-106D 1083 1087-108C 108F 109A-109C 1A61 1A63-1A64 AA7B",
     "AA7D 11720-11721"])

/-- The Korean syllables. -/
def hangulSyllable : CharSet := ⟨[⟨0xAC00, 0xD7A3⟩]⟩

/-- The Korean syllables that end with their vowel: every twenty-eighth. -/
def hangulOpenSyllable : CharSet :=
  ofCodes ((List.range 399).map fun i => 0xAC00 + 28 * i)

/-- The classes of characters in graphemes by name. -/
def graphemeBreaks : List (List String × CharSet) :=
  [(["cr"], carriageReturn),
   (["cn", "control"], graphemeControl),
   (["ex", "extend"], graphemeExtending),
   (["l"], ofTable ["1100-115F A960-A97C"]),
   (["lf"], lineFeed),
   (["lv"], hangulOpenSyllable),
   (["lvt"], hangulSyllable.diff hangulOpenSyllable),
   (["pp", "prepend"], graphemePrepend),
   (["ri", "regionalindicator"], regionalIndicator),
   (["sm", "spacingmark"], graphemeSpacingMark),
   (["t"], ofTable ["11A8-11FF D7CB-D7FB"]),
   (["v"], ofTable ["1160-11A7 D7B0-D7C6 16D63 16D67-16D6A"]),
   (["zwj"], zeroWidthJoiner)]

/-- Characters that extend the word before them. -/
def wordExtending : CharSet :=
  (unionAll [graphemeExtend, spacingMark, emojiModifier]).diff zeroWidthJoiner

/-- Format characters inside words. -/
def wordFormat : CharSet :=
  format.diff (unionAll [ofTable ["200B-200D"], wordExtending, prependedConcatenationMark])

/-- The letters of Katakana, with the marks used with them. -/
def wordKatakana : CharSet :=
  ofTable ["3031-3035 309B-309C 30A0-30FA 30FC-30FF 31F0-31FF 32D0-32FE 3300-3357 FF66-FF9D",
     "1AFF0-1AFF3 1AFF5-1AFFB 1AFFD-1AFFE 1B000 1B120-1B122 1B155 1B164-1B167"]

/-- Hebrew letters. -/
def wordHebrewLetter : CharSet :=
  ((Script.byName? "hebrew").getD empty).inter otherLetter

/-- Letters of the scripts whose words are told by a dictionary. -/
def wordDictionary : CharSet :=
  ofTable ["E01-E30 E32-E33 E40-E46 E81-E82 E84 E86-E8A E8C-EA3 EA5 EA7-EB0 EB2-EB3 EBD EC0-EC4",
     "EC6 EDC-EDF 1000-102A 103F 1050-1055 105A-105D 1061 1065-1066 106E-1070 1075-1081",
     "108E 1780-17B3 17D7 17DC 1950-196D 1970-1974 1980-19AB 19B0-19C9 1A20-1A54 1AA7",
     "A9E0-A9E4 A9E6-A9EF A9FA-A9FE AA60-AA76 AA7A AA7E-AAAF AAB1 AAB5-AAB6 AAB9-AABD AAC0",
     "AAC2 AADB-AADD 11700-1171A 11740-11746"]

/-- Letters whose words end at blanks. -/
def wordLetter : CharSet :=
  (alphabetic.union (ofTable
    ["2C2-2C5 2D2-2D7 2DE-2DF 2E5-2EB 2ED 2EF-2FF 55A-55C 55E 58A 5F3 70F A708-A716",
     "A720-A721 A789-A78A AB5B"])).diff
    (unionAll [ideographic, wordKatakana, (Script.byName? "hiragana").getD empty, wordExtending,
      wordHebrewLetter, wordDictionary])

/-- The digits of numbers and the marks around these. -/
def wordNumeric : CharSet :=
  (unionAll [decimalNumber, prependedConcatenationMark, single 0x66B]).diff (single 0x70F)

/-- The classes of characters in words by name. -/
def wordBreaks : List (List String × CharSet) :=
  [(["cr"], carriageReturn),
   (["dq", "doublequote"], single 0x22),
   (["ex", "extendnumlet"], connectorPunctuation.union (single 0x202F)),
   (["extend"], wordExtending),
   (["fo", "format"], wordFormat),
   (["hl", "hebrewletter"], wordHebrewLetter),
   (["ka", "katakana"], wordKatakana),
   (["le", "aletter"], wordLetter),
   (["lf"], lineFeed),
   (["mb", "midnumlet"], ofTable ["2E 2018-2019 2024 FE52 FF07 FF0E"]),
   (["ml", "midletter"], ofTable ["3A B7 387 55F 5F4 2027 FE13 FE55 FF1A"]),
   (["mn", "midnum"],
    ofTable ["2C 3B 37E 589 60C-60D 66C 7F8 2044 FE10 FE14 FE50 FE54 FF0C FF1B"]),
   (["nl", "newline"], ofTable ["B-C 85 2028-2029"]),
   (["nu", "numeric"], wordNumeric),
   (["ri", "regionalindicator"], regionalIndicator),
   (["sq", "singlequote"], single 0x27),
   (["wsegspace"], spaceSeparator.diff (ofTable ["A0 2007 202F"])),
   (["zwj"], zeroWidthJoiner)]

/-- Marks that may end a sentence or a number. -/
def sentenceFullStop : CharSet := ofTable ["2E 2024 FE52 FF0E"]

/-- Marks that end a sentence. -/
def sentenceEnd : CharSet := sentenceTerminal.diff sentenceFullStop

/-- Characters that extend the sentence before them. -/
def sentenceExtending : CharSet :=
  unionAll [graphemeExtend, spacingMark, zeroWidthJoiner]

/-- Format characters inside sentences. -/
def sentenceFormat : CharSet :=
  format.diff (unionAll [ofTable ["200C-200D"], sentenceExtending, prependedConcatenationMark])

/-- Small letters, without those whose capital is not used at a sentence's start. -/
def sentenceLower : CharSet :=
  lowercase.diff (graphemeExtend.union (ofTable ["10D0-10FA 10FD-10FF"]))

/-- Capital letters, without those not used at a sentence's start. -/
def sentenceUpper : CharSet :=
  (titlecaseLetter.union uppercase).diff (ofTable ["1C90-1CBA 1CBD-1CBF"])

/-- Other letters. -/
def sentenceOtherLetter : CharSet :=
  (alphabetic.union (ofTable ["5F3 70F"])).diff
    (unionAll [sentenceLower, sentenceUpper, sentenceExtending])

/-- Brackets and quotation marks after a sentence's end. -/
def sentenceClose : CharSet :=
  (unionAll [openPunctuation, closePunctuation, initialPunctuation, finalPunctuation,
    ofTable ["22 27 275B-2760 2E00-2E01 2E06-2E08 2E0B 1F676-1F678"]]).diff
    (sentenceFullStop.union sentenceEnd)

/-- The classes of characters in sentences by name. -/
def sentenceBreaks : List (List String × CharSet) :=
  [(["at", "aterm"], sentenceFullStop),
   (["cl", "close"], sentenceClose),
   (["cr"], carriageReturn),
   (["ex", "extend"], sentenceExtending),
   (["fo", "format"], sentenceFormat),
   (["le", "oletter"], sentenceOtherLetter),
   (["lf"], lineFeed),
   (["lo", "lower"], sentenceLower),
   (["nu", "numeric"], wordNumeric.union (single 0x66C)),
   (["sc", "scontinue"],
    ofTable ["2C-2D 3A-3B 37E 55D 60C-60D 7F8 1802 1808 2013-2014 3001 FE10-FE11 FE13-FE14",
             "FE31-FE32 FE50-FE51 FE54-FE55 FE58 FE63 FF0C-FF0D FF1A-FF1B FF64"]),
   (["se", "sep"], ofTable ["85 2028-2029"]),
   (["sp"], whiteSpace.diff (ofTable ["A D 85 2028-2029"])),
   (["st", "sterm"], sentenceEnd),
   (["up", "upper"], sentenceUpper)]

end GraphWarden.CharSet

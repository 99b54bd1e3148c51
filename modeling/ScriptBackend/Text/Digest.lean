/-!
# Seeded 64-bit digest

The digest of a byte string is its XXH64 value. Thirty-two bytes at a time are mixed into four
lanes, the lanes are folded into one word, the length is added, the remaining bytes are mixed in by
words of eight, then four, then one byte, and a last avalanche spreads every bit. All arithmetic is
modulo `2 ^ 64` and all words are read with the least significant byte first.
-/

namespace ScriptBackend.Text

namespace Digest

/-- First multiplier of the digest. -/
def prime1 : UInt64 := 0x9E3779B185EBCA87

/-- Second multiplier of the digest. -/
def prime2 : UInt64 := 0xC2B2AE3D27D4EB4F

/-- Third multiplier of the digest. -/
def prime3 : UInt64 := 0x165667B19E3779F9

/-- Fourth multiplier of the digest. -/
def prime4 : UInt64 := 0x85EBCA77C2B2AE63

/-- Fifth multiplier of the digest. -/
def prime5 : UInt64 := 0x27D4EB2F165667C5

/-- Rotation of a word to the left by less than its width. -/
def rotateLeft (word count : UInt64) : UInt64 := (word <<< count) ||| (word >>> (64 - count))

/-- The word whose bytes are listed, the least significant first. -/
def wordOfBytes (bytes : List UInt8) : UInt64 :=
  bytes.foldr (fun byte word => (word <<< 8) ||| byte.toUInt64) 0

/-- One round mixes a word of input into an accumulator. -/
def mixRound (acc input : UInt64) : UInt64 := rotateLeft (acc + input * prime2) 31 * prime1

/-- The four accumulators that long inputs are mixed into. -/
structure Lanes where
  /-- Accumulator of the first word of each stripe. -/
  first : UInt64
  /-- Accumulator of the second word of each stripe. -/
  second : UInt64
  /-- Accumulator of the third word of each stripe. -/
  third : UInt64
  /-- Accumulator of the fourth word of each stripe. -/
  fourth : UInt64
  deriving DecidableEq, Repr

/-- The lanes before any input. -/
def Lanes.ofSeed (seed : UInt64) : Lanes :=
  ⟨seed + prime1 + prime2, seed + prime2, seed, seed - prime1⟩

/-- Mix the four words of the next stripe into the lanes. -/
def Lanes.mix (lanes : Lanes) (first second third fourth : UInt64) : Lanes where
  first := mixRound lanes.first first
  second := mixRound lanes.second second
  third := mixRound lanes.third third
  fourth := mixRound lanes.fourth fourth

/-- Fold the four lanes into one word. -/
def Lanes.merge (lanes : Lanes) : UInt64 :=
  let start := rotateLeft lanes.first 1 + rotateLeft lanes.second 7 +
    rotateLeft lanes.third 12 + rotateLeft lanes.fourth 18
  [lanes.first, lanes.second, lanes.third, lanes.fourth].foldl
    (fun acc lane => (acc ^^^ mixRound 0 lane) * prime1 + prime4) start

/-- The whole words of eight bytes that a byte string starts with, and the bytes that are left. -/
def splitWords : List UInt8 → List UInt64 × List UInt8
  | b0 :: b1 :: b2 :: b3 :: b4 :: b5 :: b6 :: b7 :: rest =>
    let (words, tail) := splitWords rest
    (wordOfBytes [b0, b1, b2, b3, b4, b5, b6, b7] :: words, tail)
  | tail => ([], tail)

/-- Mix whole stripes of four words, giving the lanes and the words that are left. -/
def mixStripes (lanes : Lanes) : List UInt64 → Lanes × List UInt64
  | first :: second :: third :: fourth :: rest =>
    mixStripes (lanes.mix first second third fourth) rest
  | rest => (lanes, rest)

/-- Mix a word that fills no stripe into the accumulator. -/
def mixWord (acc word : UInt64) : UInt64 :=
  rotateLeft (acc ^^^ mixRound 0 word) 27 * prime1 + prime4

/-- Mix a single byte into the accumulator. -/
def mixByte (acc : UInt64) (byte : UInt8) : UInt64 :=
  rotateLeft (acc ^^^ byte.toUInt64 * prime5) 11 * prime1

/-- Mix the bytes that fill no word into the accumulator, the first four of them together. -/
def mixTail (acc : UInt64) : List UInt8 → UInt64
  | b0 :: b1 :: b2 :: b3 :: rest =>
    rest.foldl mixByte
      (rotateLeft (acc ^^^ wordOfBytes [b0, b1, b2, b3] * prime1) 23 * prime2 + prime3)
  | rest => rest.foldl mixByte acc

/-- The last mixing spreads every bit of the accumulator over the whole word. -/
def avalanche (acc : UInt64) : UInt64 :=
  let acc := (acc ^^^ (acc >>> 33)) * prime2
  let acc := (acc ^^^ (acc >>> 29)) * prime3
  acc ^^^ (acc >>> 32)

end Digest

open Digest in
/-- The digest of a byte string under a seed. -/
def digestBytes (seed : UInt64) (bytes : List UInt8) : UInt64 :=
  let (words, tail) := splitWords bytes
  let (lanes, words) := mixStripes (Lanes.ofSeed seed) words
  let start := if 32 ≤ bytes.length then lanes.merge else seed + prime5
  avalanche (mixTail (words.foldl mixWord (start + UInt64.ofNat bytes.length)) tail)

/-- The digest of a text is the digest of its UTF-8 bytes. -/
def digest (seed : UInt64) (text : String) : UInt64 :=
  digestBytes seed text.toUTF8.data.toList

end ScriptBackend.Text

import LedgerClient.Text.LetterCase
import LedgerClient.Text.Quoted
import LedgerClient.Text.Utf8

/-!
# Texts with lone halves

A text may hold one half of a surrogate pair without the other: JSON can escape one, and a caller can
write one. No bytes stand for such a torn text in UTF-8, but it can be kept, cut and shown, its halves
escaped. In a message each lone half is mended to U+FFFD.
-/

namespace LedgerClient

/-- One half of a surrogate pair. -/
structure Half where
  code : Nat
  isHalf : 0xD800 ≤ code ∧ code < 0xE000
  deriving DecidableEq, Repr

/-- What stands at one place of a text. -/
inductive Glyph where
  | char (c : Char)
  | half (h : Half)
  deriving DecidableEq, Repr

namespace Glyph

def isHalf : Glyph → Bool
  | .char _ => false
  | .half _ => true

def code : Glyph → Nat
  | .char c => c.toNat
  | .half h => h.code

def mended : Glyph → Char
  | .char c => c
  | .half _ => Text.Utf8.replacement

/-- A half is escaped, whatever the quote in use. -/
def quoted (quote : Char) : Glyph → List Char
  | .char c => Text.quoteChar quote c
  | .half h => Text.escapeCode h.code

end Glyph

/-- A text with a lone half somewhere. -/
structure Torn where
  glyphs : List Glyph
  isTorn : glyphs.any Glyph.isHalf = true
  deriving DecidableEq, Repr

namespace Torn

def mended (t : Torn) : String := String.ofList (t.glyphs.map Glyph.mended)

def quoted (t : Torn) : String :=
  let quote := Text.quoteFor t.mended.toList
  String.ofList (quote :: t.glyphs.flatMap (Glyph.quoted quote) ++ [quote])

end Torn

/-- Any text. -/
inductive Script where
  | whole (s : String)
  | torn (t : Torn)
  deriving DecidableEq, Repr

namespace Script

instance : Coe String Script := ⟨.whole⟩

def ofGlyphs (glyphs : List Glyph) : Script :=
  if h : glyphs.any Glyph.isHalf = true then .torn ⟨glyphs, h⟩
  else .whole (String.ofList (glyphs.map Glyph.mended))

def mended : Script → String
  | .whole s => s
  | .torn t => t.mended

/-- The codes by which texts are ordered. -/
def codes : Script → List Nat
  | .whole s => s.toList.map Char.toNat
  | .torn t => t.glyphs.map Glyph.code

def isTorn : Script → Bool
  | .whole _ => false
  | .torn _ => true

/-- The bytes of a whole text. -/
def utf8? : Script → Option Bytes
  | .whole s => some (Text.utf8 s)
  | .torn _ => none

theorem ofGlyphs_chars (s : List Char) : ofGlyphs (s.map .char) = .whole (String.ofList s) := by
  have hwhole : ¬(s.map Glyph.char).any Glyph.isHalf = true := by simp [Glyph.isHalf]
  rw [ofGlyphs, dif_neg hwhole, List.map_map]
  simp [Function.comp_def, Glyph.mended]

/-- Lower case of what stands between the halves, which have no case; `run` holds the characters since
the last of them, the nearest first. -/
def lowerGlyphs (run : List Char) : List Glyph → List Glyph
  | [] => (Text.lowerChars run.reverse).map .char
  | .char c :: rest => lowerGlyphs (c :: run) rest
  | .half h :: rest => (Text.lowerChars run.reverse).map .char ++ .half h :: lowerGlyphs [] rest

def lower : Script → Script
  | .whole s => .whole (Text.lower s)
  | .torn t => ofGlyphs (lowerGlyphs [] t.glyphs)

end Script

end LedgerClient

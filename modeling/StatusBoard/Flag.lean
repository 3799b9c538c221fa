import StatusBoard.Flag.Countries
import StatusBoard.Threshold

/-!
# Flags

The flag emoji that is shown for a client's country code.  A country's flag is its two-letter code
in regional indicators; the flag of a part of a country is a black flag followed by a tag.
-/

namespace StatusBoard.Flag

/-- A white flag, shown for an unknown country. -/
def unknown : String := String.ofList [Char.ofNat 0x1F3F3, Threshold.emojiForm]

/-- The regional indicator of a letter from `A` to `Z`. -/
def regionalIndicator (letter : Char) : Char := Char.ofNat (0x1F1E6 + (letter.toNat - 'A'.toNat))

/-- The tag character of an ASCII character. -/
def tagCharacter (c : Char) : Char := Char.ofNat (0xE0000 + c.toNat)

/-- The flag of a country, by its two-letter code. -/
def ofAlpha2 (code : String) : String := String.ofList (code.toList.map regionalIndicator)

/-- The flag of a part of a country: a black flag, the tag and the end of the tag. -/
def ofTag (tag : String) : String :=
  String.ofList ([Char.ofNat 0x1F3F4] ++ tag.toList.map tagCharacter ++ [Char.ofNat 0xE007F])

/-- The flag shown for a client's country code. -/
def ofCountry (country : Int32) : String :=
  match countries.lookup country with
  | some code => ofAlpha2 code
  | none =>
    match subdivisions.lookup country with
    | some tag => ofTag tag
    | none => unknown

end StatusBoard.Flag

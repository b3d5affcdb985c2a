import ColumnFile.Bytes

/-! # Texts as octets

* `Bytes.ofString` — the UTF-8 octets of a text.
* `Bytes.toString?` — the text of UTF-8 octets.
* `Bytes.toString?_ofString` — writing and reading back keeps the text.
-/

namespace ColumnFile

namespace Bytes

/-- The UTF-8 octets of a text. -/
def ofString (s : String) : Bytes := s.toUTF8.data.toList

/-- The text of UTF-8 octets; other octets have none. -/
def toString? (bs : Bytes) : Option String := String.fromUTF8? ⟨bs.toArray⟩

@[simp] theorem toString?_ofString (s : String) : (ofString s).toString? = some s := by
  have h : (⟨s.toUTF8.data.toList.toArray⟩ : ByteArray) = s.toUTF8 := by simp
  rw [toString?, ofString, h]
  simp [String.fromUTF8?, String.fromUTF8, s.isValidUTF8]

/-- Texts with the same octets are equal. -/
theorem ofString_inj {s t : String} : ofString s = ofString t ↔ s = t := by
  constructor
  · intro h
    have := congrArg toString? h
    simpa using this
  · rintro rfl
    rfl

end Bytes

end ColumnFile

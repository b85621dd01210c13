namespace MulticastDns.Text

def utf8 (s : String) : List UInt8 := s.toByteArray.data.toList

def ofUtf8? (bytes : Array UInt8) : Option String := String.fromUTF8? ⟨bytes⟩

def replacement : Char := '\uFFFD'

namespace Lossy

/-- Where the reader stands inside a character: the bytes it still needs, the range the next of
them must lie in, and the bits read so far. -/
inductive State
  | between
  | within (owed : Nat) (low high : UInt8) (bits : Nat)

def first (b : UInt8) : List Char × State :=
  if b < 0x80 then ([Char.ofNat b.toNat], .between)
  else if b < 0xC2 then ([replacement], .between)
  else if b < 0xE0 then ([], .within 1 0x80 0xBF (b.toNat - 0xC0))
  else if b = 0xE0 then ([], .within 2 0xA0 0xBF 0)
  else if b = 0xED then ([], .within 2 0x80 0x9F 0x0D)
  else if b < 0xF0 then ([], .within 2 0x80 0xBF (b.toNat - 0xE0))
  else if b = 0xF0 then ([], .within 3 0x90 0xBF 0)
  else if b < 0xF4 then ([], .within 3 0x80 0xBF (b.toNat - 0xF0))
  else if b = 0xF4 then ([], .within 3 0x80 0x8F 4)
  else ([replacement], .between)

/-- A byte that cannot continue the character begun ends it as one malformed piece, and is then
read as a first byte itself. -/
def read : State → List UInt8 → List Char
  | .between, [] => []
  | .within .., [] => [replacement]
  | .between, b :: rest => (first b).1 ++ read (first b).2 rest
  | .within owed low high bits, b :: rest =>
    if low ≤ b ∧ b ≤ high then
      let bits := bits * 64 + (b.toNat - 0x80)
      if owed ≤ 1 then Char.ofNat bits :: read .between rest
      else read (.within (owed - 1) 0x80 0xBF bits) rest
    else replacement :: (first b).1 ++ read (first b).2 rest

end Lossy

def ofUtf8Lossy (bytes : Array UInt8) : String :=
  match ofUtf8? bytes with
  | some s => s
  | none => String.ofList (Lossy.read .between bytes.toList)

theorem ofUtf8?_utf8 (s : String) : ofUtf8? (utf8 s).toArray = some s := by
  simp only [ofUtf8?, utf8, Array.toArray_toList, String.fromUTF8?]
  exact dif_pos s.isValidUTF8

theorem ofUtf8Lossy_utf8 (s : String) : ofUtf8Lossy (utf8 s).toArray = s := by
  simp [ofUtf8Lossy, ofUtf8?_utf8]

theorem utf8_of_ofUtf8? {bytes : Array UInt8} {s : String} (h : ofUtf8? bytes = some s) :
    utf8 s = bytes.toList := by
  simp only [ofUtf8?, String.fromUTF8?] at h
  split at h
  · cases h; rfl
  · cases h

@[simp] theorem length_utf8 (s : String) : (utf8 s).length = s.utf8ByteSize := by
  rfl

end MulticastDns.Text

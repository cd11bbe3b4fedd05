/-! Reading UTF-8. A refusal says how many leading bytes are sound and how long the
offending sequence is, as far as it could begin a character. -/
namespace RelaxDoc.Text

/-- Why bytes are not UTF-8: `sound` bytes can be read, then comes a sequence of
`length` bytes that no character begins with, or the input ends inside a character. -/
structure Utf8Error where
  sound : Nat
  length : Option Nat
  deriving DecidableEq, Repr

/-- The wording of a refusal. -/
def Utf8Error.message (e : Utf8Error) : String :=
  match e.length with
  | some n => s!"invalid utf-8 sequence of {n} bytes from index {e.sound}"
  | none => s!"incomplete utf-8 byte sequence from index {e.sound}"

/-- A byte that continues a character. -/
def isContinuation (b : UInt8) : Bool := 0x80 ≤ b && b ≤ 0xBF

/-- The least and the greatest second byte after a leading byte of three or more. -/
def secondRange (lead : UInt8) : UInt8 × UInt8 :=
  if lead = 0xE0 then (0xA0, 0xBF)
  else if lead = 0xED then (0x80, 0x9F)
  else if lead = 0xF0 then (0x90, 0xBF)
  else if lead = 0xF4 then (0x80, 0x8F)
  else (0x80, 0xBF)

/-- Whether `b` may follow `lead`. -/
def isSecond (lead b : UInt8) : Bool :=
  (secondRange lead).1 ≤ b && b ≤ (secondRange lead).2

/-- The six payload bits of a continuation byte. -/
def payload (b : UInt8) : Nat := b.toNat % 64

/-- Reads the characters of `bytes`, which come after `sound` sound bytes. -/
def decodeFrom (sound : Nat) : List UInt8 → Except Utf8Error (List Char)
  | [] => .ok []
  | a :: rest =>
    if a < 0x80 then
      return Char.ofNat a.toNat :: (← decodeFrom (sound + 1) rest)
    else if 0xC2 ≤ a && a ≤ 0xDF then
      match rest with
      | [] => .error ⟨sound, none⟩
      | b :: rest =>
        if isContinuation b then
          return Char.ofNat ((a.toNat % 32) * 64 + payload b) :: (← decodeFrom (sound + 2) rest)
        else .error ⟨sound, some 1⟩
    else if 0xE0 ≤ a && a ≤ 0xEF then
      match rest with
      | [] => .error ⟨sound, none⟩
      | b :: rest =>
        if !isSecond a b then .error ⟨sound, some 1⟩
        else match rest with
          | [] => .error ⟨sound, none⟩
          | c :: rest =>
            if isContinuation c then
              return Char.ofNat ((a.toNat % 16) * 4096 + payload b * 64 + payload c) ::
                (← decodeFrom (sound + 3) rest)
            else .error ⟨sound, some 2⟩
    else if 0xF0 ≤ a && a ≤ 0xF4 then
      match rest with
      | [] => .error ⟨sound, none⟩
      | b :: rest =>
        if !isSecond a b then .error ⟨sound, some 1⟩
        else match rest with
          | [] => .error ⟨sound, none⟩
          | c :: rest =>
            if !isContinuation c then .error ⟨sound, some 2⟩
            else match rest with
              | [] => .error ⟨sound, none⟩
              | d :: rest =>
                if isContinuation d then
                  return Char.ofNat ((a.toNat % 8) * 262144 + payload b * 4096 +
                    payload c * 64 + payload d) :: (← decodeFrom (sound + 4) rest)
                else .error ⟨sound, some 3⟩
    else .error ⟨sound, some 1⟩

/-- The text that `bytes` encode. -/
def decode (bytes : List UInt8) : Except Utf8Error String :=
  return String.ofList (← decodeFrom 0 bytes)

/-- The text that bytes encode, with a replacement character for each sequence that is refused;
`bound` refusals at most. -/
def decodeLossyUpTo : (bound : Nat) → List UInt8 → List Char
  | 0, _ => []
  | bound + 1, bytes =>
    match decodeFrom 0 bytes with
    | .ok cs => cs
    | .error e =>
      let sound := ((decodeFrom 0 (bytes.take e.sound)).toOption).getD []
      match e.length with
      | none => sound ++ ['\uFFFD']
      | some n => sound ++ '\uFFFD' :: decodeLossyUpTo bound (bytes.drop (e.sound + n))

/-- The text that bytes encode, with a replacement character for each sequence that is refused. -/
def decodeLossy (bytes : List UInt8) : String :=
  String.ofList (decodeLossyUpTo (bytes.length + 1) bytes)

/-- The bytes that encode a text. -/
def encode (text : String) : List UInt8 := text.toUTF8.toList

end RelaxDoc.Text

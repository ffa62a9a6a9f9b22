/-!
UTF-8 over lists of bytes.

`encode` writes a text and `decode?` reads exactly the well-formed byte strings.
`decodeLossy` reads every byte string: each maximal ill-formed piece, the longest
start of a well-formed sequence or else one byte, becomes one U+FFFD. Both readers
take the same `step`.
-/

namespace RunControl.Utf8

/-- A byte string on the wire or in a log. -/
abbrev Bytes := List UInt8

/-- The one to four bytes of a character. -/
def encodeChar (c : Char) : Bytes :=
  let n := c.toNat
  if n < 0x80 then [UInt8.ofNat n]
  else if n < 0x800 then [UInt8.ofNat (0xC0 + n / 64), UInt8.ofNat (0x80 + n % 64)]
  else if n < 0x10000 then
    [UInt8.ofNat (0xE0 + n / 4096), UInt8.ofNat (0x80 + n / 64 % 64), UInt8.ofNat (0x80 + n % 64)]
  else
    [UInt8.ofNat (0xF0 + n / 262144), UInt8.ofNat (0x80 + n / 4096 % 64),
      UInt8.ofNat (0x80 + n / 64 % 64), UInt8.ofNat (0x80 + n % 64)]

/-- The bytes of a row of characters. -/
def encodeChars (cs : List Char) : Bytes :=
  cs.flatMap encodeChar

/-- The bytes of a text. -/
def encode (s : String) : Bytes :=
  encodeChars s.toList

/-- A byte that continues a sequence: `10xxxxxx`. -/
def isContinuation (b : UInt8) : Bool :=
  0x80 ≤ b.toNat && b.toNat ≤ 0xBF

/-- The second bytes allowed after the first byte of a longer sequence. They leave
out overlong forms, surrogates and values above U+10FFFF. -/
def isSecond (first second : UInt8) : Bool :=
  let a := first.toNat
  let b := second.toNat
  if a == 0xE0 then 0xA0 ≤ b && b ≤ 0xBF
  else if a == 0xED then 0x80 ≤ b && b ≤ 0x9F
  else if a == 0xF0 then 0x90 ≤ b && b ≤ 0xBF
  else if a == 0xF4 then 0x80 ≤ b && b ≤ 0x8F
  else 0x80 ≤ b && b ≤ 0xBF

/-- The character with these payload bits, given from the highest group down. -/
def assemble (lead : Nat) (more : List UInt8) : Char :=
  Char.ofNat (more.foldl (fun n b => n * 64 + (b.toNat - 0x80)) lead)

/-- One reading step: the character at the front, or `none` for an ill-formed
piece, and the bytes that follow. -/
def step (first : UInt8) (rest : Bytes) : Option Char × Bytes :=
  let a := first.toNat
  if a < 0x80 then (some (Char.ofNat a), rest)
  else if 0xC2 ≤ a && a ≤ 0xDF then
    match rest with
    | b :: r => if isContinuation b then (some (assemble (a - 0xC0) [b]), r) else (none, rest)
    | [] => (none, [])
  else if 0xE0 ≤ a && a ≤ 0xEF then
    match rest with
    | b :: r =>
      if isSecond first b then
        match r with
        | c :: r' =>
          if isContinuation c then (some (assemble (a - 0xE0) [b, c]), r') else (none, r)
        | [] => (none, [])
      else (none, rest)
    | [] => (none, [])
  else if 0xF0 ≤ a && a ≤ 0xF4 then
    match rest with
    | b :: r =>
      if isSecond first b then
        match r with
        | c :: r' =>
          if isContinuation c then
            match r' with
            | d :: r'' =>
              if isContinuation d then (some (assemble (a - 0xF0) [b, c, d]), r'')
              else (none, r')
            | [] => (none, [])
          else (none, r)
        | [] => (none, [])
      else (none, rest)
    | [] => (none, [])
  else (none, rest)

/-- A step leaves no more bytes than stood behind the first. -/
theorem step_length_le (first : UInt8) (rest : Bytes) :
    (step first rest).2.length ≤ rest.length := by
  unfold step
  simp only
  repeat' split
  all_goals simp only [List.length_cons, List.length_nil]
  all_goals omega

/-- The characters of a well-formed byte string. -/
def decodeChars? : Bytes → Option (List Char)
  | [] => some []
  | b :: r =>
    match (step b r).1 with
    | none => none
    | some c => (decodeChars? (step b r).2).map (c :: ·)
termination_by bytes => bytes.length
decreasing_by
  have := step_length_le b r
  simp only [List.length_cons]
  omega

/-- The text of a well-formed byte string. -/
def decode? (bytes : Bytes) : Option String :=
  (decodeChars? bytes).map String.ofList

/-- The characters of any byte string, with U+FFFD for each ill-formed piece. -/
def decodeCharsLossy : Bytes → List Char
  | [] => []
  | b :: r => (step b r).1.getD (Char.ofNat 0xFFFD) :: decodeCharsLossy (step b r).2
termination_by bytes => bytes.length
decreasing_by
  have := step_length_le b r
  simp only [List.length_cons]
  omega

/-- The text of any byte string, with U+FFFD for each ill-formed piece. -/
def decodeLossy (bytes : Bytes) : String :=
  String.ofList (decodeCharsLossy bytes)

end RunControl.Utf8

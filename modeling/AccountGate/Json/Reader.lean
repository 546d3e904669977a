import AccountGate.Json.Numeral

/-!
Reading JSON from bytes. `parse?` reads one value and nothing after it. `skip` steps over a value
by its form alone: at any depth, and without a look at the characters or the size of its parts.
-/

namespace AccountGate.Json

def isSpace (b : UInt8) : Bool := b == 32 || b == 10 || b == 9 || b == 13

def skipSpace (bs : Bytes) : Bytes := bs.dropWhile isSpace

/-- The rest after a given byte and the blanks before it. -/
def expect (b : UInt8) (bs : Bytes) : Option Bytes :=
  match skipSpace bs with
  | c :: rest => if c = b then some rest else none
  | [] => none

def hexValue? (b : UInt8) : Option Nat :=
  if 48 ≤ b ∧ b ≤ 57 then some (b.toNat - 48)
  else if 97 ≤ b ∧ b ≤ 102 then some (b.toNat - 87)
  else if 65 ≤ b ∧ b ≤ 70 then some (b.toNat - 55)
  else none

def hex4? (a b c d : UInt8) : Option Nat := do
  return ((← hexValue? a) * 16 + (← hexValue? b)) * 256 + (← hexValue? c) * 16 + (← hexValue? d)

def escape? (b : UInt8) : Option UInt8 :=
  if b = 34 ∨ b = 92 ∨ b = 47 then some b
  else if b = 98 then some 8
  else if b = 102 then some 12
  else if b = 110 then some 10
  else if b = 114 then some 13
  else if b = 116 then some 9
  else none

def pushChar (n : Nat) (acc : Bytes) : Bytes :=
  (String.utf8EncodeChar (Char.ofNat n)).reverse ++ acc

/-- The bytes of a string after its opening quote, and what follows the closing one. A surrogate
escape needs its partner. -/
def stringBody (acc : Bytes) : Bytes → Option (Bytes × Bytes)
  | [] => none
  | b :: rest =>
    if b = 34 then some (acc.reverse, rest)
    else if b = 92 then
      match rest with
      | [] => none
      | e :: more =>
        if e = 117 then
          match more with
          | a :: b :: c :: d :: more =>
            match hex4? a b c d with
            | none => none
            | some u =>
              if 0xD800 ≤ u ∧ u < 0xDC00 then
                match more with
                | s :: v :: a :: b :: c :: d :: more =>
                  match hex4? a b c d with
                  | none => none
                  | some w =>
                    if s = 92 ∧ v = 117 ∧ 0xDC00 ≤ w ∧ w < 0xE000 then
                      stringBody
                        (pushChar (0x10000 + (u - 0xD800) * 1024 + (w - 0xDC00)) acc) more
                    else none
                | _ => none
              else if 0xDC00 ≤ u ∧ u < 0xE000 then none
              else stringBody (pushChar u acc) more
          | _ => none
        else
          match escape? e with
          | some c => stringBody (c :: acc) more
          | none => none
    else if b < 32 then none
    else stringBody (b :: acc) rest

/-- The text of a string after its opening quote; its bytes must be UTF-8. -/
def readString (bs : Bytes) : Option (String × Bytes) := do
  let (body, rest) ← stringBody [] bs
  return (← Text.decode? body, rest)

/-- The rest after a string whose opening quote is gone. -/
def skipString : Bytes → Option Bytes
  | [] => none
  | b :: rest =>
    if b = 34 then some rest
    else if b = 92 then
      match rest with
      | [] => none
      | e :: more =>
        if e = 117 then
          match more with
          | a :: b :: c :: d :: more => if (hex4? a b c d).isSome then skipString more else none
          | _ => none
        else if (escape? e).isSome then skipString more
        else none
    else if b < 32 then none
    else skipString rest

def word? (w : String) (bs : Bytes) : Option Bytes :=
  let bytes := Text.bytes w
  if bytes.isPrefixOf bs then some (bs.drop bytes.length) else none

/-- How many values may be nested in one another. -/
def maxDepth : Nat := 127

mutual

/-- One value, with `depth` levels to go. `fuel` bounds the steps and is never the limit when it
is the number of bytes. -/
def readValue : Nat → Nat → Bytes → Option (Json × Bytes)
  | 0, _, _ => none
  | fuel + 1, depth, bs =>
    match skipSpace bs with
    | [] => none
    | b :: rest =>
      if b = 110 then (word? "ull" rest).map (.null, ·)
      else if b = 116 then (word? "rue" rest).map (.bool true, ·)
      else if b = 102 then (word? "alse" rest).map (.bool false, ·)
      else if b = 34 then (readString rest).map fun (s, rest) => (.text s, rest)
      else if b = 91 then
        match depth with
        | 0 => none
        | depth + 1 =>
          match expect 93 rest with
          | some rest => some (.array [], rest)
          | none => (readItems fuel depth rest).map fun (items, rest) => (.array items, rest)
      else if b = 123 then
        match depth with
        | 0 => none
        | depth + 1 =>
          match expect 125 rest with
          | some rest => some (.object [], rest)
          | none => (readMembers fuel depth rest).map fun (ms, rest) => (ofMembers ms, rest)
      else do
        let (numeral, rest) ← Numeral.read (b :: rest)
        return (.number (← numeral.number?), rest)

/-- Items up to the closing bracket; there is at least one. -/
def readItems : Nat → Nat → Bytes → Option (List Json × Bytes)
  | 0, _, _ => none
  | fuel + 1, depth, bs => do
    let (item, rest) ← readValue fuel depth bs
    match expect 44 rest with
    | some rest =>
      let (items, rest) ← readItems fuel depth rest
      return (item :: items, rest)
    | none => return ([item], ← expect 93 rest)

/-- Members up to the closing brace, as written; there is at least one. -/
def readMembers : Nat → Nat → Bytes → Option (List (String × Json) × Bytes)
  | 0, _, _ => none
  | fuel + 1, depth, bs => do
    let (name, rest) ← readString (← expect 34 bs)
    let (value, rest) ← readValue fuel depth (← expect 58 rest)
    match expect 44 rest with
    | some rest =>
      let (members, rest) ← readMembers fuel depth rest
      return ((name, value) :: members, rest)
    | none => return ([(name, value)], ← expect 125 rest)

end

mutual

/-- The rest after one value. -/
def skipValue : Nat → Bytes → Option Bytes
  | 0, _ => none
  | fuel + 1, bs =>
    match skipSpace bs with
    | [] => none
    | b :: rest =>
      if b = 110 then word? "ull" rest
      else if b = 116 then word? "rue" rest
      else if b = 102 then word? "alse" rest
      else if b = 34 then skipString rest
      else if b = 91 then
        match expect 93 rest with
        | some rest => some rest
        | none => skipItems fuel rest
      else if b = 123 then
        match expect 125 rest with
        | some rest => some rest
        | none => skipMembers fuel rest
      else (Numeral.read (b :: rest)).map Prod.snd

def skipItems : Nat → Bytes → Option Bytes
  | 0, _ => none
  | fuel + 1, bs => do
    let rest ← skipValue fuel bs
    match expect 44 rest with
    | some rest => skipItems fuel rest
    | none => expect 93 rest

def skipMembers : Nat → Bytes → Option Bytes
  | 0, _ => none
  | fuel + 1, bs => do
    let rest ← skipString (← expect 34 bs)
    let rest ← skipValue fuel (← expect 58 rest)
    match expect 44 rest with
    | some rest => skipMembers fuel rest
    | none => expect 125 rest

end

def fuelFor (bs : Bytes) : Nat := 2 * bs.length + 2

/-- The value that a byte string writes, blanks around it aside. -/
def parse? (bs : Bytes) : Option Json := do
  let (value, rest) ← readValue (fuelFor bs) maxDepth bs
  guard (skipSpace rest).isEmpty
  return value

/-- The members of an object in the order in which they are written, repeated names included. -/
def parseMembers? (bs : Bytes) : Option (List (String × Json)) := do
  let rest ← expect 123 bs
  let (members, rest) ← match expect 125 rest with
    | some rest => some ([], rest)
    | none => readMembers (fuelFor bs) (maxDepth - 1) rest
  guard (skipSpace rest).isEmpty
  return members

end AccountGate.Json

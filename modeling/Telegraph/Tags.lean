import Telegraph.Domain

namespace Telegraph

/-- Unicode `White_Space`, the characters `str::trim` takes off. -/
def isWhitespace (c : Char) : Bool :=
  let n := c.toNat
  (9 ≤ n && n ≤ 13) || n == 0x20 || n == 0x85 || n == 0xA0 || n == 0x1680 ||
    (0x2000 ≤ n && n ≤ 0x200A) || n == 0x2028 || n == 0x2029 || n == 0x202F || n == 0x205F ||
    n == 0x3000

/-- `str::trim` -/
def trim (s : String) : String :=
  String.ofList (((s.toList.dropWhile isWhitespace).reverse.dropWhile isWhitespace).reverse)

/-- `str::to_ascii_lowercase` -/
def toAsciiLowercase (s : String) : String := String.ofList (s.toList.map Char.toLower)

def maxTags : Nat := 16

/-- In bytes, the leading character included. -/
def maxTagLen : Nat := 32

inductive TagError where
  | tooMany (count max : Nat)
  | invalid (tag : String)
deriving DecidableEq, Repr

def isAsciiLowercase (b : UInt8) : Bool := 97 ≤ b && b ≤ 122
def isAsciiDigit (b : UInt8) : Bool := 48 ≤ b && b ≤ 57

/-- The bytes allowed after the first are `a`-`z`, `0`-`9`, `_` and `-`. -/
def isValidTag (tag : String) : Bool :=
  match tag.toUTF8.data.toList with
  | [] => false
  | first :: rest =>
    decide (rest.length + 1 ≤ maxTagLen) && (isAsciiLowercase first || isAsciiDigit first) &&
      rest.all fun b => isAsciiLowercase b || isAsciiDigit b || b == 95 || b == 45

namespace Tags

def normalize (raw : List String) : List String :=
  raw.foldl (fun normalized item =>
    let tag := toAsciiLowercase (trim item)
    if normalized.contains tag then normalized else normalized ++ [tag]) []

/-- `Tags::new` -/
def new (raw : List String) : Except TagError Tags :=
  let normalized := normalize raw
  if maxTags < normalized.length then .error (.tooMany normalized.length maxTags)
  else match normalized.find? fun tag => !isValidTag tag with
    | some tag => .error (.invalid tag)
    | none => .ok ⟨normalized⟩

/-- Whether any tag is shared with `other`. -/
def intersects (tags other : Tags) : Bool := tags.values.any fun tag => other.values.contains tag

end Tags
end Telegraph

import MixedStack.Json.Literal

/-!
# Writing values

The shortest text of a value: no spaces, members in their order. What is missing where reading
stopped is missing in the text too.
-/

namespace MixedStack.Json

mutual

/-- The text of a value. -/
def Value.written : Value → List Char
  | .null => ['n', 'u', 'l', 'l']
  | .boolean true => ['t', 'r', 'u', 'e']
  | .boolean false => ['f', 'a', 'l', 's', 'e']
  | .natural n => Nat.toDigits 10 n.toNat
  | .negative n => '-' :: Nat.toDigits 10 n.natAbs
  | .real literal => literal.toList
  | .text s => encoded s
  | .list items _ => '[' :: writtenItems items
  | .object members _ => '\x7b' :: writtenMembers members
  | .broken _ => []

/-- The text behind an opening bracket. -/
def writtenItems : List Value → List Char
  | [] => [']']
  | v :: vs => v.written ++ writtenMoreItems vs

/-- The text behind an item. -/
def writtenMoreItems : List Value → List Char
  | [] => [']']
  | v :: vs => ',' :: (v.written ++ writtenMoreItems vs)

/-- The text behind an opening brace. -/
def writtenMembers : List (String × Value) → List Char
  | [] => ['\x7d']
  | (key, v) :: ms => encoded key ++ ':' :: (v.written ++ writtenMoreMembers ms)

/-- The text behind a member. -/
def writtenMoreMembers : List (String × Value) → List Char
  | [] => ['\x7d']
  | (key, v) :: ms => ',' :: (encoded key ++ ':' :: (v.written ++ writtenMoreMembers ms))

end

end MixedStack.Json

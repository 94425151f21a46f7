/-!
# Base64

Bytes as text: three bytes make four digits of six bits each. One or two bytes at the end make two or
three digits, and equals signs fill up the last group of four.
-/

namespace PublicIp.Text

/-- The digits from 0 to 63. -/
def base64Digits : List Char :=
  "ABCDEFGHIJKLMNOPQRSTUVWXYZabcdefghijklmnopqrstuvwxyz0123456789+/".toList

/-- Four digits for a number of 24 bits. -/
def base64Group (n : Nat) : List Char :=
  [n / 262144 % 64, n / 4096 % 64, n / 64 % 64, n % 64].map fun digit => base64Digits.getD digit '='

def base64 : List UInt8 → List Char
  | [] => []
  | [a] => (base64Group (65536 * a.toNat)).take 2 ++ ['=', '=']
  | [a, b] => (base64Group (65536 * a.toNat + 256 * b.toNat)).take 3 ++ ['=']
  | a :: b :: c :: rest => base64Group (65536 * a.toNat + 256 * b.toNat + c.toNat) ++ base64 rest

theorem length_base64 (bytes : List UInt8) : (base64 bytes).length = 4 * ((bytes.length + 2) / 3) := by
  fun_induction base64 bytes with
  | case1 => rfl
  | case2 => simp [base64Group]
  | case3 => simp [base64Group]
  | case4 a b c rest ih => simp [base64Group, ih]; omega

end PublicIp.Text

namespace GoalScript.Number

def pow2 (n : Nat) : Nat := Nat.pow 2 n

def pow10 (n : Nat) : Nat := Nat.pow 10 n

def word16 : Nat := 65536

def word32 : Nat := 4294967296

def word64 : Nat := 18446744073709551616

/-- Where signed numbers of 64 bits end. -/
def half64 : Nat := 9223372036854775808

def isSigned64 (i : Int) : Bool := -half64 ≤ i && i < half64

def max16 : Nat := word16 - 1

def max64 : Nat := word64 - 1

end GoalScript.Number

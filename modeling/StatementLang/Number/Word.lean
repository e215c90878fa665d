import StatementLang.Bytes

/-!
# Integers of 64 bits

The range of the integers that fit in a word of 64 bits, and the reduction to it.
-/

namespace StatementLang

def wordCount : Nat := 18446744073709551616

def minWord : Int := -9223372036854775808

def maxWord : Int := 9223372036854775807

/-- An integer reduced to 64 bits with a sign. -/
def wrapWord (n : Int) : Int := n.bmod wordCount

end StatementLang

namespace Lifecycle.Text

-- The Unicode property `White_Space`.
def isWhiteSpace (c : Char) : Bool :=
  let n := c.toNat
  (9 ≤ n && n ≤ 13) || n == 0x20 || n == 0x85 || n == 0xa0 || n == 0x1680 ||
    (0x2000 ≤ n && n ≤ 0x200a) || n == 0x2028 || n == 0x2029 || n == 0x202f || n == 0x205f ||
    n == 0x3000

-- What may stand between tokens: white space and the two direction marks.
def isBlank (c : Char) : Bool :=
  isWhiteSpace c || c.toNat == 0x200e || c.toNat == 0x200f

end Lifecycle.Text

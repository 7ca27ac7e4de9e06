namespace LedgerWire.Text

/-! ## Decimal notation

A nonzero number is given by its significant digits and the power of ten of the
first of them. -/

/-- Positional notation. A whole number has no point, and a number below one
starts with `0.`. -/
def positional (digits : List Char) (exponent : Int) : List Char :=
  if exponent < 0 then
    '0' :: '.' :: (List.replicate (-exponent - 1).toNat '0' ++ digits)
  else
    let whole := exponent.toNat + 1
    if digits.length ≤ whole then
      digits ++ List.replicate (whole - digits.length) '0'
    else
      digits.take whole ++ '.' :: digits.drop whole

/-- Exponential notation: one digit before the point, and an exponent that
always carries its sign. -/
def exponential (digits : List Char) (exponent : Int) : List Char :=
  let fraction :=
    match digits.drop 1 with
    | [] => []
    | rest => '.' :: rest
  let sign := if exponent < 0 then '-' else '+'
  digits.take 1 ++ fraction ++ 'e' :: sign :: Nat.toDigits 10 exponent.natAbs

end LedgerWire.Text

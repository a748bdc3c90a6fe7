import RenderPlan.Number.Shortest

/-!
# Text of floating-point words

A word is written as its shortest decimal, plainly or with an exponent. What differs between the
places that write numbers is collected in one record, `NumberLayout`.

## Main definitions

* `NumberLayout`: the decisions of one place that writes numbers.
* `Binary.text`: the text of a word under a layout.
-/

namespace RenderPlan

/-- How numbers are laid out as text. -/
structure NumberLayout where
  /-- Leading exponents that are written plainly, without a power of ten. -/
  isPlain : Int → Bool
  /-- Plain numbers always show a digit after the point. -/
  showsFraction : Bool
  /-- Which of two equally near shortest decimals is written. -/
  tie : TieRule

namespace NumberLayout

/-- A plain decimal: the digits with the point among them, or padded with zeros to reach it. -/
def plain (layout : NumberLayout) (d : Decimal) : List Char :=
  let digits := d.digitChars
  let whole : Int := digits.length + d.exponent
  if 0 ≤ d.exponent then
    digits ++ List.replicate d.exponent.toNat '0' ++
      (if layout.showsFraction then ['.', '0'] else [])
  else if 0 < whole then
    digits.take whole.toNat ++ '.' :: digits.drop whole.toNat
  else
    '0' :: '.' :: (List.replicate (-whole).toNat '0' ++ digits)

/-- A decimal with one digit before the point and a signed power of ten. -/
def scientific (d : Decimal) : List Char :=
  let exponent := d.leadingExponent
  let mantissa :=
    match d.digitChars with
    | [] => []
    | [digit] => [digit]
    | digit :: rest => digit :: '.' :: rest
  mantissa ++ 'e' :: (if exponent < 0 then '-' else '+') :: Nat.toDigits 10 exponent.natAbs

/-- The text of a decimal. -/
def decimal (layout : NumberLayout) (d : Decimal) : List Char :=
  if layout.isPlain d.leadingExponent then layout.plain d else scientific d

end NumberLayout

namespace Binary

variable {p : Precision}

/-- The text of a word; the sign of a zero is written. -/
def text (layout : NumberLayout) (x : Binary p) : String :=
  match x.datum with
  | .nan => "NaN"
  | .infinite negative => if negative then "-inf" else "inf"
  | .finite negative _ _ =>
    String.ofList ((if negative then ['-'] else []) ++ layout.decimal (x.shortest layout.tie))

end Binary

end RenderPlan

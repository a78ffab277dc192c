import ActionFlow.Decimal.Shortest

/-!
# Layout of decimal numbers

How a decimal is written: positionally while its leading digit stands near the point, else with one
digit before the point and an exponent.  `Layout` holds the decisions of a format, and
`doubleText` writes a double in the layout of documents.
-/
namespace ActionFlow.Decimal

structure Layout where
  /-- The least exponent of the leading digit that is written positionally. -/
  lowest : Int
  /-- The greatest exponent of the leading digit that is written positionally. -/
  highest : Int

/-- Numbers in documents are positional from `0.00001` up to below `10 ^ 16`. -/
def documentLayout : Layout := ⟨-5, 15⟩

def digitsText (n : Nat) : List Char := Nat.toDigits 10 n

/-- A decimal without an exponent, with at least one digit on each side of the point. -/
def positional (d : Decimal) : List Char :=
  let digits := digitsText d.digits
  if 0 ≤ d.exponent then digits ++ List.replicate d.exponent.toNat '0' ++ ['.', '0']
  else
    let places := (-d.exponent).toNat
    if places < digits.length then
      digits.take (digits.length - places) ++ '.' :: digits.drop (digits.length - places)
    else ['0', '.'] ++ List.replicate (places - digits.length) '0' ++ digits

def signedText (i : Int) : List Char :=
  (if i < 0 then '-' else '+') :: digitsText i.natAbs

def scientific (d : Decimal) : List Char :=
  let digits := digitsText d.digits
  let leading := d.exponent + digits.length - 1
  let fraction := digits.drop 1
  digits.take 1 ++ (if fraction = [] then [] else '.' :: fraction) ++ 'e' :: signedText leading

def layoutChars (layout : Layout) (d : Decimal) : List Char :=
  let leading := d.exponent + (digitsText d.digits).length - 1
  if layout.lowest ≤ leading ∧ leading ≤ layout.highest then positional d else scientific d

def doubleText (x : Float) : String :=
  let d := Dyadic.ofFloat x
  let chars := if d.mantissa = 0 then ['0', '.', '0'] else layoutChars documentLayout (shortest d)
  String.ofList (if d.negative then '-' :: chars else chars)

def integerText (i : Int) : String :=
  String.ofList (if i < 0 then '-' :: digitsText i.natAbs else digitsText i.natAbs)

end ActionFlow.Decimal

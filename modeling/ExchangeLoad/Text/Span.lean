/-!
Spans of time in words: the largest unit that fits, with as many places as are needed.
-/

namespace ExchangeLoad.Text

/-- The places of a fraction below a thousand, without zeros at the end. -/
def places (thousandths : Nat) : List Char :=
  let ds := [thousandths / 100, thousandths / 10 % 10, thousandths % 10]
  let kept := (ds.reverse.dropWhile (· = 0)).reverse
  if kept.isEmpty then [] else '.' :: kept.map fun d => Char.ofNat (48 + d)

/-- A span of milliseconds in words. -/
def span (ms : Nat) : String :=
  if ms = 0 then "0ns"
  else if ms < 1000 then toString ms ++ "ms"
  else toString (ms / 1000) ++ String.ofList (places (ms % 1000)) ++ "s"

end ExchangeLoad.Text

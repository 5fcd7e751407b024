/-!
# Rounding doubles

The integer nearest to a double, told by the sums and comparisons of doubles
alone. From `2 ^ 52` on every double is an integer, so that adding this
number to a smaller one rounds it to an integer, a half to the even one of
its two neighbours; where the even one lies below, the half goes up by one.
-/

namespace CodeProfile.Number

/-- From here on every double is an integer. -/
def integersFrom : Float := 4503599627370496.0

/-- The nearest integer, a half going away from zero. The sign is kept, also
that of a number that is rounded to zero. -/
def roundAway (x : Float) : Float :=
  let size := x.abs
  if size < integersFrom then
    let even := size + integersFrom - integersFrom
    if even == size then x
    else
      let away := if size - even == 0.5 then even + 1.0 else even
      if x < 0.0 then -away else away
  else x

end CodeProfile.Number

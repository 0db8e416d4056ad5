import VersionedProperties.Numeral.Integer

/-!
# Timestamps

The point in time that a written document names in a comment. It is given from outside.
-/

namespace VersionedProperties

/-- A point in time by calendar and clock. -/
structure Timestamp where
  weekday : Fin 7
  month : Fin 12
  day : Nat
  hour : Nat
  minute : Nat
  second : Nat
  year : Nat
  deriving DecidableEq

namespace Timestamp

/-- The short names of the days of the week, from Monday. -/
def weekdayNames : Vector String 7 := #v["Mon", "Tue", "Wed", "Thu", "Fri", "Sat", "Sun"]

/-- The short names of the months. -/
def monthNames : Vector String 12 :=
  #v["Jan", "Feb", "Mar", "Apr", "May", "Jun", "Jul", "Aug", "Sep", "Oct", "Nov", "Dec"]

/-- A number with at least two digits. -/
def twoDigits (n : Nat) : Text := if n < 10 then '0' :: Numeral.decimal n else Numeral.decimal n

/-- A timestamp in words, as in `Tue Jan 02 03:04:05 2024`. -/
def render (t : Timestamp) : Text :=
  Text.ofString weekdayNames[t.weekday] ++ " " ++ Text.ofString monthNames[t.month] ++ " " ++
    twoDigits t.day ++ " " ++ twoDigits t.hour ++ ":" ++ twoDigits t.minute ++ ":" ++
    twoDigits t.second ++ " " ++ Numeral.decimal t.year

end Timestamp

end VersionedProperties

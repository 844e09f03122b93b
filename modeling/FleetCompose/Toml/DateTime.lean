import FleetCompose.Toml.Attempt

/-!
# Dates and times

A date, a time, or a date and a time with or without an offset. No setting is a date, so only
the end of one is kept.
-/

namespace FleetCompose.Toml

/-- Read a number of two digits that lies in a range. -/
def twoDigits (low high : Nat) (cursor : Cursor) : Attempt (Nat × Cursor) :=
  match cursor.rest with
  | a :: b :: _ =>
      if a.isDigit && b.isDigit then
        let number := 10 * (a.toNat - 0x30) + (b.toNat - 0x30)
        if low ≤ number && number ≤ high then .found (number, cursor.advance 2)
        else absentAt cursor (.refused .outOfRange)
      else absentAt cursor .bare
  | _ => absentAt cursor .bare

/-- How many days a month has. -/
def daysOfMonth (year month : Nat) : Nat :=
  if month = 2 then
    if year % 4 = 0 && (year % 100 != 0 || year % 400 = 0) then 29 else 28
  else if month ∈ [4, 6, 9, 11] then 30
  else 31

/-- Read four digits for a year. -/
def yearDigits (cursor : Cursor) : Attempt (Nat × Cursor) :=
  let digits := cursor.rest.take 4
  if digits.length = 4 && digits.all Char.isDigit then
    .found (digits.foldl (fun n c => 10 * n + (c.toNat - 0x30)) 0, cursor.advance 4)
  else absentAt cursor .bare

/-- Read a date. Behind the first dash it has to be one. -/
def date (cursor : Cursor) : Attempt Cursor := do
  let (year, after) ← yearDigits cursor
  let after ← character '-' after
  let (month, after) ← (twoDigits 1 12 after).require
  let dayPlace ← (character '-' after).require
  let (day, after) ← (twoDigits 1 31 dayPlace).require
  if daysOfMonth year month < day then brokenAt dayPlace (.refused .outOfRange)
  else return after

/-- Go over the digits of a fraction of a second, if there are any. -/
def skipFraction (cursor : Cursor) : Cursor :=
  match cursor.rest with
  | '.' :: c :: _ => if c.isDigit then ((cursor.advance 1).span Char.isDigit).2 else cursor
  | _ => cursor

/-- Read a time. Behind the first colon it has to be one. -/
def time (cursor : Cursor) : Attempt Cursor := do
  let (_, after) ← twoDigits 0 23 cursor
  let after ← character ':' after
  let (_, after) ← (twoDigits 0 59 after).require
  let after ← (character ':' after).require
  let (_, after) ← (twoDigits 0 60 after).require
  return skipFraction after

/-- Read the offset of a time, if there is one. -/
def timeOffset (cursor : Cursor) : Attempt Cursor :=
  match cursor.next? with
  | some c =>
      if c = 'Z' || c = 'z' then .found (cursor.advance 1)
      else if c = '+' || c = '-' then
        Attempt.within .timeOffset <| Attempt.require do
          let (_, after) ← twoDigits 0 23 (cursor.advance 1)
          let after ← character ':' after
          let (_, after) ← twoDigits 0 59 after
          return after
      else .found cursor
  | none => .found cursor

/-- Read the time behind a date, if there is one. -/
def timeOfDay (cursor : Cursor) : Attempt Cursor :=
  match cursor.next? with
  | some c =>
      if c = 'T' || c = 't' || c = ' ' then do
        match ← (time (cursor.advance 1)).optional with
        | some after => timeOffset after
        | none => return cursor
      else .found cursor
  | none => .found cursor

/-- Read a date or a time. -/
def dateTime (cursor : Cursor) : Attempt Cursor :=
  (((date cursor).bind timeOfDay).within .dateTime).orElse fun _ => (time cursor).within .time

end FleetCompose.Toml

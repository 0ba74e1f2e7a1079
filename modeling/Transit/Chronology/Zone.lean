import Transit.Chronology.Instant

/-!
# Time zones

A zone is a name and the history of its offset from universal time.  The table
`Zone.all` holds the zones that can be named; their offsets are exact from December
2023 to February 2025.
-/

namespace Transit

/-- A time zone: its name, its offset from universal time in seconds at first, and
the seconds of universal time from which another offset holds, in order. -/
structure Zone where
  name : String
  offset : Int
  changes : List (Int × Int)
deriving DecidableEq

namespace Zone

/-- The offset that holds at an instant. -/
def offsetAt (zone : Zone) (instant : Instant) : Int :=
  zone.changes.foldl
    (fun offset change => if change.1 ≤ instant.second then change.2 else offset)
    zone.offset

/-- A zone that keeps one offset. -/
def fixed (name : String) (offset : Int) : Zone := ⟨name, offset, []⟩

/-- Universal time. -/
def universal : Zone := fixed "UTC" 0

/-- The second of universal time at which the clocks of a place, `offset` seconds
ahead until then, show an hour and minute of a date. -/
def clockChange (year : Int) (month day hour minute : Nat) (offset : Int) : Int :=
  Date.dayNumberOf year month day * 86400 + hour * 3600 + minute * 60 - offset

/-- Zones that put their clocks forward on one day of 2024 and back on another: the
name, the two offsets, and the seconds of the two changes. -/
def withSummer (name : String) (winter summer forward back : Int) : Zone :=
  ⟨name, winter, [(forward, summer), (back, winter)]⟩

/-- The changes of 2024 that take place at one o'clock of universal time. -/
def european (name : String) (offset : Int) : Zone :=
  withSummer name offset (offset + 3600)
    (clockChange 2024 3 31 1 0 0) (clockChange 2024 10 27 1 0 0)

/-- The changes of 2024 that take place at two o'clock on local clocks. -/
def northAmerican (name : String) (offset : Int) : Zone :=
  withSummer name offset (offset + 3600)
    (clockChange 2024 3 10 2 0 offset) (clockChange 2024 11 3 2 0 (offset + 3600))

/-- An island whose summer time is only half an hour, and lasts over the new year. -/
def lordHowe : Zone :=
  ⟨"Australia/Lord_Howe", 39600,
    [(clockChange 2024 4 7 2 0 39600, 37800), (clockChange 2024 10 6 2 0 37800, 39600)]⟩

/-- The zones that can be named. -/
def all : List Zone :=
  [ universal,
    fixed "GMT" 0,
    european "Europe/Berlin" 3600,
    european "CET" 3600,
    european "Europe/London" 0,
    northAmerican "America/New_York" (-18000),
    northAmerican "America/St_Johns" (-12600),
    lordHowe,
    fixed "Asia/Kolkata" 19800,
    fixed "Asia/Kathmandu" 20700,
    fixed "Asia/Tokyo" 32400,
    fixed "Pacific/Kiritimati" 50400,
    fixed "Pacific/Pago_Pago" (-39600),
    fixed "America/Sao_Paulo" (-10800),
    fixed "Etc/GMT+5" (-18000) ]

/-- The zone of a name, which must be spelt exactly. -/
def named? (name : String) : Option Zone :=
  all.find? (·.name == name)

end Zone

end Transit

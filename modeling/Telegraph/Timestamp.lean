import Telegraph.Lib.Calendar
import Telegraph.Lib.TextOrder

namespace Telegraph

/-! A UTC instant is an `Int`: nanoseconds since 1970-01-01T00:00:00Z. A duration
is an `Int` in the same unit. -/

namespace Duration

def seconds (n : Int) : Int := n * 1000000000
def minutes (n : Int) : Int := seconds (n * 60)
def hours (n : Int) : Int := minutes (n * 60)

end Duration

namespace Timestamp
open Lib

/-- 0000-01-01T00:00:00Z, 719528 days before the epoch. -/
def yearZero : Int := Duration.hours (-719528 * 24)

/-- 10000-01-01T00:00:00Z, the first instant RFC 3339 has no text for. -/
def yearTenThousand : Int := Duration.hours (2932897 * 24)

/-- The years `format` has text for; its `expect` fails on any other. -/
def InYears (t : Int) : Prop := yearZero ≤ t ∧ t < yearTenThousand

instance (t : Int) : Decidable (InYears t) := inferInstanceAs (Decidable (_ ∧ _))

/-- Whole seconds since the start of year 0. -/
def second (t : Int) : Nat := (t - yearZero).toNat / 1000000000

def nanosecond (t : Int) : Nat := (t - yearZero).toNat % 1000000000

/-- The fixed-width part: `YYYY-MM-DDThh:mm:ss`. -/
def secondText (s : Nat) : List Char :=
  let date := Calendar.dateOf (s / 86400)
  TextOrder.padded 4 date.year ++ ('-' :: TextOrder.padded 2 date.month) ++
    ('-' :: TextOrder.padded 2 date.day) ++ ('T' :: TextOrder.padded 2 (s % 86400 / 3600)) ++
    (':' :: TextOrder.padded 2 (s % 3600 / 60)) ++ (':' :: TextOrder.padded 2 (s % 60))

/-- The nine fraction digits without trailing zeros; empty for a whole second. -/
def fractionDigits (t : Int) : List Char := TextOrder.significant 9 (nanosecond t)

def fractionText (t : Int) : List Char :=
  if nanosecond t = 0 then [] else '.' :: fractionDigits t

/-- `timestamp::format`: RFC 3339 text, as the database stores it. -/
def format (t : Int) : String :=
  String.ofList (secondText (second t) ++ (fractionText t ++ ['Z']))

/-- SQLite's BINARY collation on UTF-8 text, whose byte order is the order of
code points. -/
def TextLt (x y : String) : Prop := x.toList < y.toList

instance (x y : String) : Decidable (TextLt x y) :=
  inferInstanceAs (Decidable (x.toList < y.toList))

end Timestamp

/-- `time::OffsetDateTime` as RFC 3339 text gives it: an instant and the offset it is
written with, in minutes, whose hours have two digits; its local year has four. -/
structure OffsetDateTime where
  instant : Int
  offset : Int
  withinDay : -1440 < offset ∧ offset < 1440
  inYears : Timestamp.InYears (instant + Duration.minutes offset)
deriving DecidableEq, Repr

namespace OffsetDateTime
open Lib Timestamp

/-- The clock on the wall there. -/
def localTime (t : OffsetDateTime) : Int := t.instant + Duration.minutes t.offset

def offsetText (m : Int) : List Char :=
  if m = 0 then ['Z']
  else (if m < 0 then '-' else '+') :: TextOrder.padded 2 (m.natAbs / 60) ++
    (':' :: TextOrder.padded 2 (m.natAbs % 60))

/-- `timestamp::format` of a value that may have an offset. -/
def format (t : OffsetDateTime) : String :=
  String.ofList (secondText (second t.localTime) ++ (fractionText t.localTime ++ offsetText t.offset))

/-- With no offset it is the text of the instant. -/
theorem format_utc {t : OffsetDateTime} (h : t.offset = 0) : t.format = Timestamp.format t.instant := by
  have hlocal : t.localTime = t.instant := by
    rw [localTime, h]
    exact Int.add_zero _
  rw [format, hlocal, h]
  rfl

end OffsetDateTime
end Telegraph

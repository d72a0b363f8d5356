import TimetableFeed.Number.Layout
import TimetableFeed.Text.Utf8

/-!
# Excerpts of bodies

The beginning of a body as text, for a log line. A body that is longer ends in a mark that tells its
size.
-/

namespace TimetableFeed.Excerpt

def defaultLimit : Int := 256

/-- The first `limit` bytes; a negative limit leaves out as many at the end. -/
def head (bytes : List UInt8) (limit : Int) : List UInt8 :=
  if 0 ≤ limit then bytes.take limit.toNat else bytes.take (bytes.length + limit).toNat

def mark (size : Nat) : String := "…<truncated " ++ integerText size ++ "b>"

/-- The first `limit` bytes as text, and the mark if there are more. -/
def write (limit : Int) (bytes : List UInt8) : String :=
  let text := Utf8.decodeLossy (head bytes limit)
  if limit < bytes.length then text ++ mark bytes.length else text

/-- The excerpt of a body that is given as text: that of its bytes. -/
def writeText (limit : Int) (s : String) : String := write limit (Utf8.encode s)

end TimetableFeed.Excerpt

import Unformat.Failure
import Unformat.Scan.Lines

/-!
# Configuration of a scanner
-/

namespace Unformat

structure Config where
  /-- How many bytes a read asks for. -/
  bufferSize : Int := 8192
  /-- Whether patterns are compiled when the scanner is made. -/
  eagerCompile : Bool := false
  /-- How many plans the shared cache may keep; zero or less leaves the cache alone. -/
  cacheCapacity : Int := 256
  /-- What becomes of lines that do not match. -/
  lineErrors : String := "raise"
  deriving Repr, DecidableEq

namespace Config

/-- The parameters of a scanner for which none are given. -/
def standard : Config := {}

/-- What is odd about the parameters. -/
def warnings (config : Config) : List String :=
  (if config.bufferSize ≤ 0 then ["buffer_size must be positive"] else []) ++
  (if config.cacheCapacity < 0 then ["plan_cache_capacity must be non-negative"] else []) ++
  (if config.lineErrors = "raise" ∨ config.lineErrors = "skip" then []
    else ["line_errors must be 'raise' or 'skip'"])

end Config

/-- The treatment of lines that a text names. -/
def LineErrors.parse (text : String) : Except Failure LineErrors :=
  if text = "raise" then .ok .raise
  else if text = "skip" then .ok .skip
  else .error (.value (.lineErrors text))

/-- A reader of a source, of which a read asks for `size` bytes. -/
def Reader.ofSource (size : Int) (source : Source) : Except Failure Reader :=
  if size < 1 then .error (.value (.bufferSize size))
  else match source.deliveries size.toNat with
    | .ok pending => .ok (.ofDeliveries pending)
    | .error kind => .error (.unreadable kind)

end Unformat

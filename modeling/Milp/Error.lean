import Milp.Arg.Basic

/-!
# Errors

Every way in which an operation can refuse its arguments or its moment, one constructor per cause.
`Error.category` sorts causes by what a caller may do about them; `Error.message` is the one place
where they are put into words.
-/

namespace Milp

/-- **What kind of refusal it is.** The first six belong to building and solving models, the others
tell what was wrong with a bare value or with what an engine answered. -/
inductive Category where
  | invalidArgument
  | dimensionMismatch
  | indexOutOfRange
  | malformedBatch
  | invalidState
  | useAfterDispose
  | wrongKind
  | badValue
  | tooLarge
  | outOfBounds
  | incomparable
  | engineStatus
  | engineFailure
  deriving DecidableEq

/-- What makes a bare value unusable where a number, a count or a position is needed. -/
inductive Fault where
  | wrongKind
  | unreadable
  | tooLarge
  | outOfBounds
  deriving DecidableEq

/-- Which side of a range a value has left. -/
inductive Side where
  | lower
  | upper
  deriving DecidableEq

/-- **The causes of refusal.** -/
inductive Error where
  /-- a bare value cannot be used -/
  | fault (f : Fault)
  /-- a bare value is no number -/
  | notANumber (given : Arg) (f : Fault)
  /-- a list or a record cannot be looked up -/
  | notAKey (given : Arg)
  /-- no array can have so many entries -/
  | tooManyEntries (count : Nat)
  -- vectors
  | notNumeric (name : String)
  | notIndices (name : String)
  | notOneDimensional (name : String) (shape : List Nat)
  | wrongCount (name : String) (found : Nat) (expected : Arg)
  | holdsNaN (name : String)
  | notIntegers (name : String)
  | notIntegerType (name type : String)
  | notFinite (name : String)
  -- bounds of one row
  | rowBoundsNotNumbers
  | rowBoundsNaN
  | rowLowerInfinite
  | rowUpperInfinite
  | rowBoundsCrossed (lo hi : Binary64)
  -- the pattern of one row; `row` is its position in a batch, if it belongs to one
  | patternLengths (indices coeffs : Nat) (row : Arg)
  | indexRange (columns : Arg) (low high : Int) (row : Arg)
  | repeatedIndex (row : Arg)
  | cachedIndexRange (columns : Nat) (high : Int)
  -- columns
  | columnsNotInteger
  | columnsNegative (n : Int)
  | rowsHintNegative (hint : Arg)
  | flagsNotOneDimensional
  | flagsCount (found expected : Nat)
  | columnLowerInfinite
  | columnUpperInfinite
  | columnBoundsCrossed (column : Nat) (lo hi : Binary64) (affected : Nat)
  | frozen
  -- batches of rows
  | rowCountNegative (count : Arg)
  | batchVector (cause : Error)
  | startsCount (expected : Arg.Real) (found : Nat)
  | batchLengths (indices coeffs : Nat)
  | startsOrigin (first : Int)
  | startsDecrease
  | startsEnd (last : Int) (indices : Nat)
  -- solving
  | timeLimitNotNumber (given : Arg)
  | timeLimitNotPositive (given : Binary64)
  | columnBoundNotFinite (side : Side) (bound : Binary64)
  | initialValue (column : Nat) (value : Binary64) (side : Side) (bound : Binary64)
  | statusCode (code : Arg)
  | solutionStatusCode (code : Arg)
  | engineFailed (text : String)
  -- sessions and handles
  | disposed (handle : Option Nat)
  | notBuilding (operation phase : String)
  | notSolved (operation phase : String)
  | handleDisposed (handle : Arg)
  | handleUnknown (handle : Arg)
  -- generated instances
  | columnsNotPositive
  | densityRange
  | seedNegative
  | shareNotComparable
  | shapesDiffer (left right : List Nat)
  | unknownMode (mode : Arg)

namespace Error

/-- The category of a fault. -/
def ofFault : Fault → Category
  | .wrongKind => .wrongKind
  | .unreadable => .badValue
  | .tooLarge => .tooLarge
  | .outOfBounds => .outOfBounds

/-- **The category of a cause.** -/
def category : Error → Category
  | fault f | notANumber _ f => ofFault f
  | notAKey _ => .wrongKind
  | notOneDimensional _ _ | wrongCount _ _ _ | patternLengths _ _ _ | flagsNotOneDimensional
  | flagsCount _ _ => .dimensionMismatch
  | indexRange _ _ _ _ | cachedIndexRange _ _ => .indexOutOfRange
  | rowCountNegative _ | batchVector _ | startsCount _ _ | batchLengths _ _ | startsOrigin _
  | startsDecrease | startsEnd _ _ => .malformedBatch
  | frozen | notBuilding _ _ | notSolved _ _ => .invalidState
  | disposed _ | handleDisposed _ => .useAfterDispose
  | tooManyEntries _ | initialValue _ _ _ _ | columnsNotPositive | densityRange | seedNegative
  | shapesDiffer _ _ | unknownMode _ => .badValue
  | shareNotComparable => .incomparable
  | columnBoundNotFinite _ _ | statusCode _ | solutionStatusCode _ => .engineStatus
  | engineFailed _ => .engineFailure
  | _ => .invalidArgument

/-- **Whether an error is a model's refusal of its arguments.** -/
def isInvalidArgument (e : Error) : Bool :=
  match e.category with
  | .invalidArgument | .dimensionMismatch | .indexOutOfRange | .malformedBatch => true
  | _ => false

/-- **Whether an error is a refusal of the moment**, whatever the arguments are. -/
def isInvalidState (e : Error) : Bool :=
  match e.category with
  | .invalidState | .useAfterDispose => true
  | _ => false

/-- Whether an error says that a value is not acceptable, and not that it is of the wrong kind. -/
def isBadValue (e : Error) : Bool := decide (e.category = .badValue) || e.isInvalidArgument

/-- The mention of a row's position in a batch. -/
def inRow : Arg → String
  | .absent => ""
  | row => s!" (row {row.shown})"

/-- What is wrong with a bare value that should be a number. A list is never read as one; where it stands for
a single entry it is told to be unreadable. -/
def numberMessage (given : Arg) : Fault → String
  | .wrongKind => s!"float() argument must be a string or a real number, not \x27{given.kind}\x27"
  | .unreadable =>
    match given with
    | .list _ => "setting an array element with a sequence."
    | given => s!"could not convert string to float: {given.quoted}"
  | .tooLarge => "int too large to convert to float"
  | .outOfBounds => ""

/-- **The words for a cause.** A bare fault has none: it is told by its category. -/
def message : Error → String
  | fault _ => ""
  | notANumber given f => numberMessage given f
  | tooManyEntries count =>
    if count < Nat.pow 2 63 then
      "array is too big; `arr.size * arr.dtype.itemsize` is larger than the maximum possible size."
    else "Maximum allowed dimension exceeded"
  | notAKey given => s!"unhashable type: \x27{given.kind}\x27"
  | notNumeric name => s!"{name} must be a numeric vector"
  | notIndices name => s!"{name} must be an integer vector"
  | notOneDimensional name shape =>
    s!"{name} must be one-dimensional, got shape {Text.shape shape}"
  | wrongCount name found expected => s!"{name} has {found} entries, expected {expected.shown}"
  | holdsNaN name => s!"{name} contains NaN"
  | notIntegers name => s!"{name} must hold integers"
  | notIntegerType name type => s!"{name} must hold integers, got dtype {type}"
  | notFinite name => s!"{name} must contain only finite values"
  | rowBoundsNotNumbers => "row bounds must be numbers"
  | rowBoundsNaN => "row bounds must not be NaN"
  | rowLowerInfinite => "row lower bound cannot be +infinity"
  | rowUpperInfinite => "row upper bound cannot be -infinity"
  | rowBoundsCrossed lo hi => s!"row lower bound {lo.text} exceeds upper bound {hi.text}"
  | patternLengths indices coeffs row =>
    s!"sparse row has {indices} indices but {coeffs} coefficients" ++ inRow row
  | indexRange columns low high row =>
    s!"column index out of range [0, {columns.shown}): min={low}, max={high}" ++ inRow row
  | repeatedIndex row => "sparse row repeats a column index" ++ inRow row
  | cachedIndexRange columns high => s!"column index out of range [0, {columns}): max={high}"
  | columnsNotInteger => "num_columns must be an integer"
  | columnsNegative n => s!"num_columns must be non-negative, got {n}"
  | rowsHintNegative hint => s!"num_rows hint must be non-negative, got {hint.shown}"
  | flagsNotOneDimensional => "integer flags must be one-dimensional"
  | flagsCount found expected => s!"integer flags have {found} entries, expected {expected}"
  | columnLowerInfinite => "column lower bound cannot be +infinity"
  | columnUpperInfinite => "column upper bound cannot be -infinity"
  | columnBoundsCrossed column lo hi affected =>
    s!"column {column} has lower bound {lo.text} above upper bound {hi.text}" ++
      s!" ({affected} column(s) affected)"
  | frozen => "model is frozen; it can no longer be modified"
  | rowCountNegative count => s!"row count must be non-negative, got {count.shown}"
  | batchVector cause => cause.message
  | startsCount expected found =>
    s!"row starts must have {expected.text} entries, got {found}"
  | batchLengths indices coeffs => s!"batch has {indices} indices but {coeffs} coefficients"
  | startsOrigin first => s!"row starts must begin at 0, got {first}"
  | startsDecrease => "row starts must be non-decreasing"
  | startsEnd last indices => s!"last row start {last} does not match buffer length {indices}"
  | timeLimitNotNumber given => s!"time limit must be a number, got {given.quoted}"
  | timeLimitNotPositive given => s!"time limit must be positive, got {given.text}"
  | columnBoundNotFinite side bound =>
    let name := match side with
      | .lower => "lower"
      | .upper => "upper"
    s!"The {name} bound of a variable must be finite, got {bound.text}"
  | initialValue column value side bound =>
    let (relation, name) := match side with
      | .lower => ("smaller", "lowBound")
      | .upper => ("greater", "upBound")
    s!"In variable x{column}, initial value {value.text} is {relation} than {name} {bound.text}"
  | statusCode code => s!"Invalid status code: {code.shown}"
  | solutionStatusCode code => s!"Invalid solution status code: {code.shown}"
  | engineFailed text => text
  | disposed handle =>
    let name := match handle with
      | some h => toString h
      | none => "None"
    s!"session {name} has been disposed"
  | notBuilding operation phase =>
    s!"{operation} is only allowed while building (state: {phase})"
  | notSolved operation phase => s!"{operation} requires a solved model (state: {phase})"
  | handleDisposed handle => s!"model handle {handle.shown} has been disposed"
  | handleUnknown handle => s!"unknown model handle {handle.quoted}"
  | columnsNotPositive => "columns must be positive"
  | densityRange => "density must be in (0, 1]"
  | seedNegative => "expected non-negative integer"
  | shareNotComparable => "the share of integer columns cannot be compared with numbers"
  | shapesDiffer left right =>
    s!"operands could not be broadcast together with shapes {Text.shape left} {Text.shape right} "
  | unknownMode mode =>
    s!"unknown mode {mode.quoted}; expected one of dense, sparse, cached, batch"

end Error

end Milp

import MessageEngine.Core.ImpairmentEngine
import MessageEngine.Lib.Lines

/-!
# ImpairmentConfigLoader

The configuration of the impairments is read from a text file. The file is read with `fgets` into 128
bytes, 64 times at most, and every piece that gives a key and a value sets a field.

A file is its bytes, and a string in memory the bytes before its `NUL`. The functions of the C library
are modelled for the C locale, with numbers of 64 bits where it says `unsigned long`; a double is the
rational number it stands for.
-/

namespace MessageEngine

open Outcome

namespace ImpairmentConfigLoader

abbrev maxConfigLines : Nat := 64

abbrev maxConfigLineLen : Nat := 128

/-! ## The C library -/

/-- The bytes of a text in ASCII. -/
def ascii (s : String) : List UInt8 := s.toList.map fun c => .ofNat c.toNat

/-- `'\n'`. -/
abbrev newline : UInt8 := 10

def isSpace (c : UInt8) : Bool := c == 32 || (decide (9 ≤ c) && decide (c ≤ 13))

def isDigit (c : UInt8) : Bool := decide (48 ≤ c) && decide (c ≤ 57)

/-- A letter of either case to its lower case. -/
def toLower (c : UInt8) : UInt8 := if 65 ≤ c ∧ c ≤ 90 then c + 32 else c

/-- The number that digits of a base spell. -/
def spelled (base : Nat) (digits : List Nat) : Nat := digits.foldl (fun n d => base * n + d) 0

def digitValue (c : UInt8) : Nat := c.toNat - 48

/-- A sign in front, and what follows. -/
def takeSign (s : List UInt8) : Bool × List UInt8 :=
  match s with
  | c :: rest => if c = 45 then (true, rest) else if c = 43 then (false, rest) else (false, s)
  | [] => (false, [])

/-- What `strtoul` and `strtoull` return in base 10: the value, where they stopped, and whether `errno`
is `ERANGE`. -/
def strtoul (val : List UInt8) : UInt64 × List UInt8 × Bool :=
  let (negative, s) := takeSign (val.dropWhile isSpace)
  let digits := s.takeWhile isDigit
  if digits = [] then (0, val, false)
  else
    let rest := s.dropWhile isDigit
    let n := spelled 10 (digits.map digitValue)
    if n > 0xFFFFFFFFFFFFFFFF then (0xFFFFFFFFFFFFFFFF, rest, true)
    else (if negative then 0 - .ofNat n else .ofNat n, rest, false)

/-- A double. -/
inductive Double where
  | nan
  | infinite (negative : Bool)
  | finite (q : Rat)

/-- The double nearest to a number, the even one of two. -/
def Double.round (q : Rat) : Double :=
  if q = 0 then .finite 0
  else
    let size : Rat := |q|
    let guess : Int := (size.num.natAbs.log2 : Int) - size.den.log2
    let exponent := if size ≥ 2 ^ guess then guess else guess - 1
    let unit : Rat := 2 ^ max (exponent - 52) (-1074)
    let whole := (size / unit).floor
    let rest := size / unit - whole
    let kept := if rest > 1 / 2 ∨ (rest = 1 / 2 ∧ whole % 2 = 1) then whole + 1 else whole
    let rounded := kept * unit
    if rounded ≥ 2 ^ (1024 : Nat) then .infinite (decide (q < 0))
    else .finite (if q < 0 then -rounded else rounded)

def isHexDigit (c : UInt8) : Bool := isDigit c || (decide (97 ≤ toLower c) && decide (toLower c ≤ 102))

def hexDigitValue (c : UInt8) : Nat := if isDigit c then digitValue c else (toLower c).toNat - 87

/-- Digits with at most one point among them: the digits, how many are behind the point, and what
follows. -/
def takeFraction (isDigit : UInt8 → Bool) (s : List UInt8) : List UInt8 × Nat × List UInt8 :=
  let whole := s.takeWhile isDigit
  match s.dropWhile isDigit with
  | c :: rest =>
    if c = 46 then (whole ++ rest.takeWhile isDigit, (rest.takeWhile isDigit).length, rest.dropWhile isDigit)
    else (whole, 0, c :: rest)
  | [] => (whole, 0, [])

/-- An exponent behind its letter, `0` if none is there, and what follows. -/
def takeExponent (letter : UInt8) (s : List UInt8) : Int × List UInt8 :=
  match s with
  | c :: rest =>
    let (negative, t) := takeSign rest
    let digits := t.takeWhile isDigit
    if toLower c = letter ∧ digits ≠ [] then
      let n : Int := spelled 10 (digits.map digitValue)
      (if negative then -n else n, t.dropWhile isDigit)
    else (0, s)
  | [] => (0, [])

/-- What follows a word in letters of either case. -/
def afterWord (word : String) (s : List UInt8) : Option (List UInt8) :=
  if (s.take word.length).map toLower = ascii word then some (s.drop word.length) else none

/-- What follows `nan`, after letters and digits in parentheses if they are there. -/
def afterPayload (s : List UInt8) : List UInt8 :=
  match s with
  | c :: rest =>
    let t := rest.dropWhile fun c => isDigit c || (decide (97 ≤ toLower c) && decide (toLower c ≤ 122)) || c == 95
    if c = 40 ∧ t.head? = some 41 then t.drop 1 else s
  | [] => []

/-- A number of `strtod` behind its sign: its size and what follows, or `none` when there is no digit. -/
def takeNumber (s : List UInt8) : Option (Rat × List UInt8) :=
  let (hex, hexFraction, afterHex) := takeFraction isHexDigit (s.drop 2)
  if (s.take 2).map toLower = ascii "0x" ∧ hex ≠ [] then
    let (exponent, rest) := takeExponent 112 afterHex
    some ((spelled 16 (hex.map hexDigitValue) : Rat) * 2 ^ (exponent - 4 * hexFraction), rest)
  else
    let (digits, fraction, afterDigits) := takeFraction isDigit s
    if digits = [] then none
    else
      let (exponent, rest) := takeExponent 101 afterDigits
      some ((spelled 10 (digits.map digitValue) : Rat) * 10 ^ (exponent - fraction), rest)

/-- What `strtod` returns: the value and where it stopped. -/
def strtod (val : List UInt8) : Double × List UInt8 :=
  let (negative, s) := takeSign (val.dropWhile isSpace)
  match (afterWord "infinity" s).or (afterWord "inf" s) with
  | some rest => (.infinite negative, rest)
  | none =>
    match afterWord "nan" s with
    | some rest => (.nan, afterPayload rest)
    | none =>
      match takeNumber s with
      | some (size, rest) => (.round (if negative then -size else size), rest)
      | none => (.finite 0, val)

/-! ## Values -/

def parseUint (val : List UInt8) : Option UInt32 :=
  let (v, rest, erange) := strtoul val
  if rest = val ∨ rest ≠ [] then none
  else if erange then none
  else if v > 0xFFFFFFFF then none
  else some v.toUInt32

def parseBool (val : List UInt8) : Option Bool :=
  let (v, rest, _) := strtoul val
  if rest = val ∨ rest ≠ [] then none
  else some (decide (v ≠ 0))

def parseProb (val : List UInt8) : Checked (Option Rat) := do
  let (v, rest) := strtod val
  if rest = val ∨ rest ≠ [] then
    return none
  match v with
  | .nan | .infinite _ => return none
  | .finite v =>
    let v := if v < 0 then 0 else v
    let v := if v > 1 then 1 else v
    neverCompiledOutAssert .parseProb (v ≥ 0 ∧ v ≤ 1)
    return some v

def parseU64 (val : List UInt8) : Option UInt64 :=
  let (v, rest, erange) := strtoul val
  if rest = val ∨ rest ≠ [] then none
  else if erange then none
  else some v

def applyReorderWindow (val : List UInt8) (cfg : ImpairmentConfig) : Checked ImpairmentConfig := do
  let (v, rest, erange) := strtoul val
  if rest = val ∨ rest ≠ [] then
    return cfg
  if erange ∨ v > 0xFFFFFFFF then
    return cfg
  let w := v.toUInt32
  let w := if w > .ofNat impairDelayBufSize then .ofNat impairDelayBufSize else w
  let cfg := { cfg with reorderWindowSize := w }
  neverCompiledOutAssert .applyReorderWindow (cfg.reorderWindowSize ≤ .ofNat impairDelayBufSize)
  return cfg

/-! ## Keys -/

/-- Whether the key was one of these, and the configuration. -/
def applyKvLatencyJitter (key val : List UInt8) (cfg : ImpairmentConfig) : Bool × ImpairmentConfig :=
  if key = ascii "enabled" then (true, { cfg with enabled := (parseBool val).getD cfg.enabled })
  else if key = ascii "fixed_latency_ms" then
    (true, { cfg with fixedLatencyMs := (parseUint val).getD cfg.fixedLatencyMs })
  else if key = ascii "jitter_mean_ms" then
    (true, { cfg with jitterMeanMs := (parseUint val).getD cfg.jitterMeanMs })
  else if key = ascii "jitter_variance_ms" then
    (true, { cfg with jitterVarianceMs := (parseUint val).getD cfg.jitterVarianceMs })
  else (false, cfg)

def applyKvLossReorder (key val : List UInt8) (cfg : ImpairmentConfig) : Checked (Bool × ImpairmentConfig) := do
  if key = ascii "loss_probability" then
    let v ← parseProb val
    return (true, { cfg with lossProbability := v.getD cfg.lossProbability })
  else if key = ascii "duplication_probability" then
    let v ← parseProb val
    return (true, { cfg with duplicationProbability := v.getD cfg.duplicationProbability })
  else if key = ascii "reorder_enabled" then
    return (true, { cfg with reorderEnabled := (parseBool val).getD cfg.reorderEnabled })
  else if key = ascii "reorder_window_size" then
    let cfg ← applyReorderWindow val cfg
    return (true, cfg)
  else return (false, cfg)

def applyKvPartitionSeed (key val : List UInt8) (cfg : ImpairmentConfig) : Bool × ImpairmentConfig :=
  if key = ascii "partition_enabled" then
    (true, { cfg with partitionEnabled := (parseBool val).getD cfg.partitionEnabled })
  else if key = ascii "partition_duration_ms" then
    (true, { cfg with partitionDurationMs := (parseUint val).getD cfg.partitionDurationMs })
  else if key = ascii "partition_gap_ms" then
    (true, { cfg with partitionGapMs := (parseUint val).getD cfg.partitionGapMs })
  else if key = ascii "prng_seed" then (true, { cfg with prngSeed := (parseU64 val).getD cfg.prngSeed })
  else (false, cfg)

def applyKv (key val : List UInt8) (cfg : ImpairmentConfig) : Checked ImpairmentConfig := do
  let (handled, cfg) := applyKvLatencyJitter key val cfg
  let (handled, cfg) ← if !handled then applyKvLossReorder key val cfg else pure (handled, cfg)
  let (_, cfg) := if !handled then applyKvPartitionSeed key val cfg else (handled, cfg)
  pure cfg

/-! ## Lines -/

/-- `' '` and `'\t'`. -/
def isBlank (c : UInt8) : Bool := c == 32 || c == 9

/-- `' '`, `'\t'` and `'='`. -/
def isSeparator (c : UInt8) : Bool := c == 32 || c == 9 || c == 61

/-- `sscanf` with `"%63[^ \t=]%*[ \t=]%63s"`, when it converts both. -/
def scanPair (p : List UInt8) : Option (List UInt8 × List UInt8) :=
  let key := (p.takeWhile fun c => !isSeparator c).take 63
  let rest := p.drop key.length
  if key = [] ∨ (rest.takeWhile isSeparator) = [] then none
  else
    let val := (((rest.dropWhile isSeparator).dropWhile isSpace).takeWhile fun c => !isSpace c).take 63
    if val = [] then none else some (key, val)

/-- What is in the buffer up to its `NUL`, without the blanks in front. -/
def skipBlanks (line : List UInt8) : List UInt8 := (line.takeWhile (· != 0)).dropWhile isBlank

def parseConfigLine (line : List UInt8) (cfg : ImpairmentConfig) : Checked ImpairmentConfig := do
  let p := skipBlanks line
  match p with
  | [] => return cfg
  | c :: _ =>
    if c = 35 ∨ c = 59 ∨ c = newline ∨ c = 13 then
      return cfg
    match scanPair p with
    | none => return cfg
    | some (key, val) =>
      neverCompiledOutAssert .parseConfigLine (key ≠ [])
      applyKv key val cfg

/-- The loop of `impairment_config_load`, with the reads that are left. -/
def readLines : Nat → List UInt8 → ImpairmentConfig → Checked ImpairmentConfig
  | 0, _, cfg => pure cfg
  | _ + 1, [], cfg => pure cfg
  | n + 1, text@(_ :: _), cfg => do
    -- `fgets` leaves room for the `NUL`.
    let (line, rest) := Lines.piece newline (maxConfigLineLen - 1) text
    let cfg ← parseConfigLine line cfg
    readLines n rest cfg

/-- With the bytes of the file, or `none` when it cannot be opened. -/
def impairmentConfigLoad (file : Option (List UInt8)) : Checked (Result × ImpairmentConfig) := do
  let cfg := impairmentConfigDefault
  match file with
  | none => return (.errIo, cfg)
  | some text =>
    let cfg ← readLines maxConfigLines text cfg
    neverCompiledOutAssert .impairmentConfigLoad (cfg.lossProbability ≥ 0 ∧ cfg.lossProbability ≤ 1)
    neverCompiledOutAssert .impairmentConfigLoad
      (cfg.duplicationProbability ≥ 0 ∧ cfg.duplicationProbability ≤ 1)
    return (.ok, cfg)

end ImpairmentConfigLoader

end MessageEngine

import MessageEngine.Core.ImpairmentConfigLoader

/-!
# What a configuration file says

The loader never fails: it skips what it cannot read. So a file is the list of its settings, and what a
field holds in the end is what the last of them that was accepted said (`loaded`).

## What is proved

- `impairmentConfigLoad_eq`: the loader applies the settings of the pieces that `fgets` reads;
- `init_ready_iff`: when the engine accepts what was loaded;
- `comments_silent`: comment lines that `fgets` reads at once make no difference;
- `long_comment_heard`: there are longer ones, of any length from 137 characters on, that do.
-/

namespace MessageEngine

open Outcome Lines

namespace ImpairmentConfigLoader

/-! ## One setting -/

/-- The value the setting gives to the key, when it is accepted. -/
def told {ν : Type} (name : String) (parse : List UInt8 → Option ν) (kv : List UInt8 × List UInt8) : Option ν :=
  if kv.1 = ascii name then parse kv.2 else none

/-- The probability that is accepted: a number, moved into the unit interval. -/
def probability (val : List UInt8) : Option Rat :=
  let (v, rest) := strtod val
  if rest = val ∨ rest ≠ [] then none
  else
    match v with
    | .nan | .infinite _ => none
    | .finite v => some (min 1 (max 0 v))

/-- The window that is accepted: a number, cut to the size of the buffer. -/
def windowSize (val : List UInt8) : Option UInt32 :=
  (parseUint val).map fun w => if w > .ofNat impairDelayBufSize then .ofNat impairDelayBufSize else w

/-- The configuration after a setting. -/
def applied (cfg : ImpairmentConfig) (kv : List UInt8 × List UInt8) : ImpairmentConfig where
  enabled := (told "enabled" parseBool kv).getD cfg.enabled
  fixedLatencyMs := (told "fixed_latency_ms" parseUint kv).getD cfg.fixedLatencyMs
  jitterMeanMs := (told "jitter_mean_ms" parseUint kv).getD cfg.jitterMeanMs
  jitterVarianceMs := (told "jitter_variance_ms" parseUint kv).getD cfg.jitterVarianceMs
  lossProbability := (told "loss_probability" probability kv).getD cfg.lossProbability
  duplicationProbability := (told "duplication_probability" probability kv).getD cfg.duplicationProbability
  reorderEnabled := (told "reorder_enabled" parseBool kv).getD cfg.reorderEnabled
  reorderWindowSize := (told "reorder_window_size" windowSize kv).getD cfg.reorderWindowSize
  partitionEnabled := (told "partition_enabled" parseBool kv).getD cfg.partitionEnabled
  partitionDurationMs := (told "partition_duration_ms" parseUint kv).getD cfg.partitionDurationMs
  partitionGapMs := (told "partition_gap_ms" parseUint kv).getD cfg.partitionGapMs
  prngSeed := (told "prng_seed" parseU64 kv).getD cfg.prngSeed

theorem parseProb_eq (val : List UInt8) : parseProb val = .ok (probability val) := by
  unfold parseProb probability
  generalize strtod val = answer
  obtain ⟨v, rest⟩ := answer
  by_cases hbad : rest = val ∨ rest ≠ []
  · simp only [if_pos hbad, pure_eq_ok]
  · simp only [if_neg hbad]
    cases v with
    | nan | infinite => rfl
    | finite v =>
      have hlow : (if v < 0 then 0 else v) = max 0 v := by
        split
        case isTrue hneg => exact (max_eq_left hneg.le).symm
        case isFalse hpos => exact (max_eq_right (not_lt.mp hpos)).symm
      have hhigh : (if max 0 v > 1 then 1 else max 0 v) = min 1 (max 0 v) := by
        split
        case isTrue hbig => exact (min_eq_left hbig.le).symm
        case isFalse hsmall => exact (min_eq_right (not_lt.mp hsmall)).symm
      have hrange : min 1 (max 0 v) ≥ 0 ∧ min 1 (max 0 v) ≤ 1 :=
        ⟨le_min zero_le_one (le_max_left 0 v), min_le_left _ _⟩
      simp only [hlow, hhigh, neverCompiledOutAssert, ensure_pos hrange, ok_bind, pure_eq_ok]

theorem applyReorderWindow_eq (val : List UInt8) (cfg : ImpairmentConfig) :
    applyReorderWindow val cfg =
      .ok { cfg with reorderWindowSize := (windowSize val).getD cfg.reorderWindowSize } := by
  unfold applyReorderWindow windowSize parseUint
  generalize strtoul val = answer
  obtain ⟨v, rest, erange⟩ := answer
  by_cases hbad : rest = val ∨ rest ≠ []
  · simp only [if_pos hbad, pure_eq_ok]
    rfl
  · by_cases hrange : erange = true
    · simp only [if_neg hbad, hrange, true_or, if_true, pure_eq_ok]
      rfl
    · by_cases hbig : v > 0xFFFFFFFF
      · have heither : erange = true ∨ v > 0xFFFFFFFF := .inr hbig
        simp only [if_neg hbad, if_neg hrange, if_pos hbig, if_pos heither, pure_eq_ok]
        rfl
      · have hneither : ¬ (erange = true ∨ v > 0xFFFFFFFF) := not_or.mpr ⟨hrange, hbig⟩
        have hbound : (if v.toUInt32 > .ofNat impairDelayBufSize then .ofNat impairDelayBufSize else v.toUInt32) ≤
            UInt32.ofNat impairDelayBufSize := by
          split
          case isTrue => exact UInt32.le_refl _
          case isFalse hless => exact UInt32.not_lt.mp hless
        simp only [if_neg hbad, if_neg hrange, if_neg hbig, if_neg hneither, neverCompiledOutAssert,
          ensure_pos hbound, ok_bind, pure_eq_ok]
        rfl

/-- A key and a value set at most the field of the key. -/
theorem applyKv_eq (key val : List UInt8) (cfg : ImpairmentConfig) :
    applyKv key val cfg = .ok (applied cfg (key, val)) := by
  unfold applyKv applyKvLatencyJitter applyKvLossReorder applyKvPartitionSeed
  by_cases h₁ : key = ascii "enabled"
  · subst h₁
    simp +decide [applied, told]
  by_cases h₂ : key = ascii "fixed_latency_ms"
  · subst h₂
    simp +decide [applied, told]
  by_cases h₃ : key = ascii "jitter_mean_ms"
  · subst h₃
    simp +decide [applied, told]
  by_cases h₄ : key = ascii "jitter_variance_ms"
  · subst h₄
    simp +decide [applied, told]
  by_cases h₅ : key = ascii "loss_probability"
  · subst h₅
    simp +decide [applied, told, parseProb_eq]
  by_cases h₆ : key = ascii "duplication_probability"
  · subst h₆
    simp +decide [applied, told, parseProb_eq]
  by_cases h₇ : key = ascii "reorder_enabled"
  · subst h₇
    simp +decide [applied, told]
  by_cases h₈ : key = ascii "reorder_window_size"
  · subst h₈
    simp +decide [applied, told, applyReorderWindow_eq]
  by_cases h₉ : key = ascii "partition_enabled"
  · subst h₉
    simp +decide [applied, told]
  by_cases h₁₀ : key = ascii "partition_duration_ms"
  · subst h₁₀
    simp +decide [applied, told]
  by_cases h₁₁ : key = ascii "partition_gap_ms"
  · subst h₁₁
    simp +decide [applied, told]
  by_cases h₁₂ : key = ascii "prng_seed"
  · subst h₁₂
    simp +decide [applied, told]
  simp only [h₁, h₂, h₃, h₄, h₅, h₆, h₇, h₈, h₉, h₁₀, h₁₁, h₁₂, applied, told, if_false]
  rfl

/-! ## A file -/

/-- The setting a piece of the file gives. -/
def setting? (line : List UInt8) : Option (List UInt8 × List UInt8) :=
  match skipBlanks line with
  | [] => none
  | c :: rest => if c = 35 ∨ c = 59 ∨ c = newline ∨ c = 13 then none else scanPair (c :: rest)

/-- The settings of what `fgets` reads. -/
def settings (text : List UInt8) : List (List UInt8 × List UInt8) :=
  (pieces newline (maxConfigLineLen - 1) maxConfigLines text).filterMap setting?

/-- The defaults, and over them the settings. -/
def loaded (ss : List (List UInt8 × List UInt8)) : ImpairmentConfig := ss.foldl applied impairmentConfigDefault

theorem parseConfigLine_eq (line : List UInt8) (cfg : ImpairmentConfig) :
    parseConfigLine line cfg = .ok (((setting? line).toList).foldl applied cfg) := by
  unfold parseConfigLine setting?
  cases skipBlanks line with
  | nil => rfl
  | cons c rest =>
    by_cases hskip : c = 35 ∨ c = 59 ∨ c = newline ∨ c = 13
    · simp only [if_pos hskip, pure_eq_ok]
      rfl
    · simp only [if_neg hskip]
      cases hpair : scanPair (c :: rest) with
      | none => rfl
      | some kv =>
        obtain ⟨key, val⟩ := kv
        have hkey : key ≠ [] := by
          intro hempty
          unfold scanPair at hpair
          dsimp only at hpair
          split at hpair
          case isTrue => cases hpair
          case isFalse hfound =>
            split at hpair
            case isTrue => cases hpair
            case isFalse =>
              cases hpair
              exact hfound (.inl hempty)
        simp only [neverCompiledOutAssert, ensure_pos hkey, ok_bind, applyKv_eq]
        rfl

theorem readLines_eq (n : Nat) (text : List UInt8) (cfg : ImpairmentConfig) :
    readLines n text cfg =
      .ok (((pieces newline (maxConfigLineLen - 1) n text).filterMap setting?).foldl applied cfg) := by
  induction n generalizing text cfg with
  | zero => rfl
  | succ n ih =>
    cases text with
    | nil => rfl
    | cons c text =>
      rw [readLines, pieces]
      simp only [parseConfigLine_eq, ok_bind, ih]
      cases hset : setting? (piece newline (maxConfigLineLen - 1) (c :: text)).1 with
      | none =>
        rw [List.filterMap_cons_none hset]
        rfl
      | some kv =>
        rw [List.filterMap_cons_some hset]
        rfl

/-- What the loader checks itself. -/
structure InRange (cfg : ImpairmentConfig) : Prop where
  loss : cfg.lossProbability ≥ 0 ∧ cfg.lossProbability ≤ 1
  duplication : cfg.duplicationProbability ≥ 0 ∧ cfg.duplicationProbability ≤ 1
  window : cfg.reorderWindowSize ≤ .ofNat impairDelayBufSize

theorem probability_range {val : List UInt8} {v : Rat} (h : probability val = some v) : v ≥ 0 ∧ v ≤ 1 := by
  unfold probability at h
  dsimp only at h
  split at h
  case isTrue => cases h
  case isFalse =>
    split at h
    case h_3 =>
      cases h
      exact ⟨le_min zero_le_one (le_max_left 0 _), min_le_left _ _⟩
    case h_1 | h_2 => cases h

theorem windowSize_range {val : List UInt8} {w : UInt32} (h : windowSize val = some w) :
    w ≤ .ofNat impairDelayBufSize := by
  obtain ⟨v, -, rfl⟩ := Option.map_eq_some_iff.mp h
  split
  case isTrue => exact UInt32.le_refl _
  case isFalse hless => exact UInt32.not_lt.mp hless

/-- What every accepted value of a setting has, and the field had, the field has. -/
theorem told_getD {ν : Type} {P : ν → Prop} {name : String} {parse : List UInt8 → Option ν}
    (accepted : ∀ val v, parse val = some v → P v) (kv : List UInt8 × List UInt8) {old : ν} (hold : P old) :
    P ((told name parse kv).getD old) := by
  cases h : told name parse kv with
  | none => exact hold
  | some v =>
    unfold told at h
    split at h
    case isTrue => exact accepted _ _ h
    case isFalse => cases h

theorem InRange.applied {cfg : ImpairmentConfig} (h : InRange cfg) (kv : List UInt8 × List UInt8) :
    InRange (applied cfg kv) where
  loss := told_getD (fun _ _ => probability_range) kv h.loss
  duplication := told_getD (fun _ _ => probability_range) kv h.duplication
  window := told_getD (fun _ _ => windowSize_range) kv h.window

theorem inRange_loaded (ss : List (List UInt8 × List UInt8)) : InRange (loaded ss) := by
  have hdefault : InRange impairmentConfigDefault := ⟨⟨le_rfl, zero_le_one⟩, ⟨le_rfl, zero_le_one⟩, by decide⟩
  exact List.foldlRecOn ss applied hdefault fun _ h kv _ => h.applied kv

/-- The loader applies the settings of what it reads, and its own checks pass. -/
theorem impairmentConfigLoad_eq (text : List UInt8) :
    impairmentConfigLoad (some text) = .ok (.ok, loaded (settings text)) := by
  have hrange := inRange_loaded (settings text)
  have hread : readLines maxConfigLines text impairmentConfigDefault = .ok (loaded (settings text)) :=
    readLines_eq _ _ _
  unfold impairmentConfigLoad
  simp only [hread, ok_bind, neverCompiledOutAssert, ensure_pos hrange.loss, ensure_pos hrange.duplication,
    pure_eq_ok]

/-- What the last accepted setting of a key said. -/
def lastTold {ν : Type} (name : String) (parse : List UInt8 → Option ν) (default : ν)
    (ss : List (List UInt8 × List UInt8)) : ν :=
  ((ss.filterMap (told name parse)).getLast?).getD default

/-- What is loaded is the last word on every key. -/
theorem loaded_eq (ss : List (List UInt8 × List UInt8)) : loaded ss =
    { enabled := lastTold "enabled" parseBool false ss
      fixedLatencyMs := lastTold "fixed_latency_ms" parseUint 0 ss
      jitterMeanMs := lastTold "jitter_mean_ms" parseUint 0 ss
      jitterVarianceMs := lastTold "jitter_variance_ms" parseUint 0 ss
      lossProbability := lastTold "loss_probability" probability 0 ss
      duplicationProbability := lastTold "duplication_probability" probability 0 ss
      reorderEnabled := lastTold "reorder_enabled" parseBool false ss
      reorderWindowSize := lastTold "reorder_window_size" windowSize 0 ss
      partitionEnabled := lastTold "partition_enabled" parseBool false ss
      partitionDurationMs := lastTold "partition_duration_ms" parseUint 0 ss
      partitionGapMs := lastTold "partition_gap_ms" parseUint 0 ss
      prngSeed := lastTold "prng_seed" parseU64 0 ss } := by
  have word {ν : Type} (field : ImpairmentConfig → ν) (name : String) (parse : List UInt8 → Option ν)
      (set : ∀ cfg kv, field (applied cfg kv) = (told name parse kv).getD (field cfg)) :
      field (loaded ss) = lastTold name parse (field impairmentConfigDefault) ss :=
    Settings.foldl_last field _ set ss _
  have heta (cfg : ImpairmentConfig) : cfg = ⟨cfg.enabled, cfg.fixedLatencyMs, cfg.jitterMeanMs,
      cfg.jitterVarianceMs, cfg.lossProbability, cfg.duplicationProbability, cfg.reorderEnabled,
      cfg.reorderWindowSize, cfg.partitionEnabled, cfg.partitionDurationMs, cfg.partitionGapMs, cfg.prngSeed⟩ := rfl
  rw [heta (loaded ss),
    word ImpairmentConfig.enabled "enabled" parseBool fun _ _ => rfl,
    word ImpairmentConfig.fixedLatencyMs "fixed_latency_ms" parseUint fun _ _ => rfl,
    word ImpairmentConfig.jitterMeanMs "jitter_mean_ms" parseUint fun _ _ => rfl,
    word ImpairmentConfig.jitterVarianceMs "jitter_variance_ms" parseUint fun _ _ => rfl,
    word ImpairmentConfig.lossProbability "loss_probability" probability fun _ _ => rfl,
    word ImpairmentConfig.duplicationProbability "duplication_probability" probability fun _ _ => rfl,
    word ImpairmentConfig.reorderEnabled "reorder_enabled" parseBool fun _ _ => rfl,
    word ImpairmentConfig.reorderWindowSize "reorder_window_size" windowSize fun _ _ => rfl,
    word ImpairmentConfig.partitionEnabled "partition_enabled" parseBool fun _ _ => rfl,
    word ImpairmentConfig.partitionDurationMs "partition_duration_ms" parseUint fun _ _ => rfl,
    word ImpairmentConfig.partitionGapMs "partition_gap_ms" parseUint fun _ _ => rfl,
    word ImpairmentConfig.prngSeed "prng_seed" parseU64 fun _ _ => rfl]
  rfl

theorem loaded_partitionEnabled (ss : List (List UInt8 × List UInt8)) :
    (loaded ss).partitionEnabled = lastTold "partition_enabled" parseBool false ss := by
  rw [loaded_eq]

theorem loaded_partitionGapMs (ss : List (List UInt8 × List UInt8)) :
    (loaded ss).partitionGapMs = lastTold "partition_gap_ms" parseUint 0 ss := by
  rw [loaded_eq]

/-! ## The engine -/

/-- The engine takes a configuration that is in range and does not part at once. -/
theorem init_iff (cfg : ImpairmentConfig) (hrange : InRange cfg) :
    (∃ entropy e, ImpairmentEngine.init cfg entropy = .ok e) ↔
      ¬ (cfg.partitionEnabled = true ∧ cfg.partitionGapMs = 0) := by
  have hwindow : cfg.reorderWindowSize.toNat ≤ impairDelayBufSize := UInt32.le_iff_toNat_le.mp hrange.window
  constructor
  · rintro ⟨entropy, e, hinit⟩ ⟨henabled, hgap⟩
    obtain ⟨-, hinit⟩ := ensure_bind_eq_ok.mp hinit
    obtain ⟨-, hinit⟩ := ensure_bind_eq_ok.mp hinit
    obtain ⟨hready, -⟩ := ensure_bind_eq_ok.mp hinit
    rw [henabled, hgap] at hready
    exact absurd hready (by decide)
  · intro hready
    have hgap : (!cfg.partitionEnabled) = true ∨ cfg.partitionGapMs > 0 := by
      rcases not_and_or.mp hready with hoff | hpos
      · exact .inl (by simpa using hoff)
      · exact .inr (UInt32.pos_iff_ne_zero.mpr hpos)
    have hentropy : (1 : UInt64) ≠ 0 := by decide
    refine ⟨1, ?_⟩
    unfold ImpairmentEngine.init
    simp only [neverCompiledOutAssert, ensure_pos hwindow, ensure_pos hrange.loss, ensure_pos hgap, ok_bind,
      ensure_pos hentropy]
    split
    · exact ⟨_, rfl⟩
    · exact ⟨_, rfl⟩

/-- Whatever the file says, the engine takes what was loaded, unless the last word on partitions is that
they are on and the last word on their gap, or the default, is zero. -/
theorem init_ready_iff (text : List UInt8) : ∃ cfg, impairmentConfigLoad (some text) = .ok (.ok, cfg) ∧
    cfg.reorderWindowSize.toNat ≤ impairDelayBufSize ∧
    (cfg.lossProbability ≥ 0 ∧ cfg.lossProbability ≤ 1) ∧
    ((∃ entropy e, ImpairmentEngine.init cfg entropy = .ok e) ↔
      ¬ (lastTold "partition_enabled" parseBool false (settings text) = true ∧
        lastTold "partition_gap_ms" parseUint 0 (settings text) = 0)) := by
  have hrange := inRange_loaded (settings text)
  refine ⟨_, impairmentConfigLoad_eq text, UInt32.le_iff_toNat_le.mp hrange.window, hrange.loss, ?_⟩
  rw [init_iff _ hrange, loaded_partitionEnabled, loaded_partitionGapMs]

/-- A file that only switches partitions on. -/
theorem gap_unset : ∃ cfg, impairmentConfigLoad (some (ascii "partition_enabled = 1\n")) = .ok (.ok, cfg) ∧
    ¬ ∃ entropy e, ImpairmentEngine.init cfg entropy = .ok e := by
  have hrange := inRange_loaded (settings (ascii "partition_enabled = 1\n"))
  refine ⟨_, impairmentConfigLoad_eq _, fun hready => (init_iff _ hrange).mp hready ?_⟩
  rw [loaded_partitionEnabled, loaded_partitionGapMs]
  exact ⟨by decide +kernel, by decide +kernel⟩

/-! ## Comments -/

/-- The first character that is not blank starts a comment. -/
def isComment (line : List UInt8) : Bool :=
  match line.dropWhile isBlank with
  | c :: _ => c == 35 || c == 59
  | [] => false

/-- The file without its comment lines. -/
def withoutComments (text : List UInt8) : List UInt8 := ((lines newline text).filter (!isComment ·)).flatten

/-- The settings of the lines that are no comments. -/
def lineSettings (text : List UInt8) : List (List UInt8 × List UInt8) :=
  ((lines newline text).filter (!isComment ·)).filterMap setting?

/-- A comment is no setting. -/
theorem setting?_comment {line : List UInt8} (hnul : 0 ∉ line) (hcomment : isComment line = true) :
    setting? line = none := by
  have hwhole : line.takeWhile (· != 0) = line :=
    List.takeWhile_eq_self_iff.mpr fun c hc => bne_iff_ne.mpr (ne_of_mem_of_not_mem hc hnul)
  unfold isComment at hcomment
  unfold setting? skipBlanks
  rw [hwhole]
  split at hcomment
  case h_2 => cases hcomment
  case h_1 c rest hline =>
    rw [hline]
    have hskip : c = 35 ∨ c = 59 ∨ c = newline ∨ c = 13 := by
      simp only [Bool.or_eq_true, beq_iff_eq] at hcomment
      rcases hcomment with h | h
      · exact .inl h
      · exact .inr (.inl h)
    exact if_pos hskip

variable {text : List UInt8}

/-- Without its comments a file is read line by line. -/
theorem settings_withoutComments (hcount : (lines newline text).length ≤ maxConfigLines)
    (hshort : ∀ line ∈ lines newline text, isComment line = false →
      (line.takeWhile (· ≠ newline)).length < maxConfigLineLen - 1) :
    settings (withoutComments text) = lineSettings text := by
  have hcut : Cut newline (lines newline text) := cut_lines text
  have hsub := List.filter_sublist (p := fun line => !isComment line) (l := lines newline text)
  have hpieces : pieces newline (maxConfigLineLen - 1) maxConfigLines (withoutComments text) =
      (lines newline text).filter (!isComment ·) := by
    refine pieces_flatten (hcut.sublist hsub) (fun line hline => ?_) (Nat.le_trans hsub.length_le hcount)
    obtain ⟨hmem, hplain⟩ := List.mem_filter.mp hline
    exact Nat.le_trans (hcut.length_le hmem) (hshort line hmem (by simpa using hplain))
  rw [settings, hpieces]
  rfl

/-- When every line is read at once, the comments among them are skipped. -/
theorem settings_eq_lineSettings (hnul : 0 ∉ text) (hcount : (lines newline text).length ≤ maxConfigLines)
    (hfit : ∀ line ∈ lines newline text, line.length ≤ maxConfigLineLen - 1) : settings text = lineSettings text := by
  rw [settings, pieces_eq_lines hfit hcount, lineSettings, List.filterMap_filter]
  refine List.filterMap_congr fun line hline => ?_
  split
  case isTrue => rfl
  case isFalse hcomment =>
    have hpart : 0 ∉ line := fun hc => hnul (by
      rw [← @flatten_lines _ _ newline text]
      exact List.mem_flatten.mpr ⟨line, hline, hc⟩)
    exact setting?_comment hpart (by simpa using hcomment)

/-- Whatever the comments say: when each of them, with its end of line, is read at once, the file gives the
configuration that it gives without them. -/
theorem comments_silent (text : List UInt8) (hnul : 0 ∉ text) (hcount : (lines newline text).length ≤ maxConfigLines)
    (hshort : ∀ line ∈ lines newline text, isComment line = false →
      (line.takeWhile (· ≠ newline)).length < maxConfigLineLen - 1)
    (hfit : ∀ line ∈ lines newline text, isComment line = true → line.length ≤ maxConfigLineLen - 1) :
    ∃ cfg, impairmentConfigLoad (some text) = .ok (.ok, cfg) ∧
      impairmentConfigLoad (some (withoutComments text)) = .ok (.ok, cfg) := by
  refine ⟨_, impairmentConfigLoad_eq text, ?_⟩
  rw [impairmentConfigLoad_eq, settings_withoutComments hcount hshort, settings_eq_lineSettings hnul hcount]
  intro line hline
  cases hcomment : isComment line with
  | true => exact hfit line hline hcomment
  | false => exact Nat.le_trans ((cut_lines text).length_le hline) (hshort line hline hcomment)

/-- Two settings and two comments that read like settings; the second fills the window. -/
def commented : List UInt8 :=
  ascii "# enabled = 0\nenabled = 1\n;" ++ List.replicate 112 120 ++ ascii "prng_seed = 7\nprng_seed = 9\n"

theorem commented_silent : ∃ cfg, impairmentConfigLoad (some commented) = .ok (.ok, cfg) ∧
    impairmentConfigLoad (some (withoutComments commented)) = .ok (.ok, cfg) :=
  comments_silent commented (by decide +kernel) (by decide +kernel) (by decide +kernel) (by decide +kernel)

/-! ### Longer comments -/

/-- A comment of `137 + n` characters, whose end reads as a setting. -/
def longComment (n : Nat) : List UInt8 :=
  ascii "#" ++ List.replicate 126 120 ++ (ascii "enabled=1" ++ (List.replicate n 32 ++ [newline]))

/-- Behind a value blanks make no difference. -/
theorem setting?_enabled {blanks : List UInt8} (hblanks : ∀ c ∈ blanks, c = 32 ∨ c = newline) :
    setting? (ascii "enabled=1" ++ blanks) = some (ascii "enabled", ascii "1") := by
  have hspace : ∀ c ∈ blanks, isSpace c = true := fun c hc => by
    rcases hblanks c hc with rfl | rfl
    · decide
    · decide
  have hline : (ascii "enabled=1" ++ blanks).takeWhile (· != 0) = ascii "enabled=1" ++ blanks := by
    refine List.takeWhile_eq_self_iff.mpr fun c hc => ?_
    rcases List.mem_append.mp hc with hc | hc
    · exact List.all_eq_true.mp (by decide +kernel : (ascii "enabled=1").all (· != 0) = true) c hc
    · rcases hblanks c hc with rfl | rfl
      · decide
      · decide
  have hvalue : (ascii "1" ++ blanks).takeWhile (fun c => !isSpace c) = ascii "1" := by
    rw [List.takeWhile_append_of_pos (by decide +kernel)]
    cases blanks with
    | nil => rfl
    | cons c rest =>
      rw [List.takeWhile_cons_of_neg (by simp [hspace c List.mem_cons_self]), List.append_nil]
  have hpair : scanPair (ascii "enabled=1" ++ blanks) = some (ascii "enabled", ascii "1") := by
    have hval : ((((ascii "enabled=1" ++ blanks).drop 7).dropWhile isSeparator).dropWhile isSpace) =
        ascii "1" ++ blanks := rfl
    unfold scanPair
    have hkey : ((ascii "enabled=1" ++ blanks).takeWhile fun c => !isSeparator c).take 63 = ascii "enabled" := rfl
    dsimp only
    rw [hkey]
    have hlen : (ascii "enabled").length = 7 := rfl
    rw [hlen, hval, hvalue]
    rfl
  unfold setting? skipBlanks
  rw [hline]
  exact hpair

/-- Blanks are no setting. -/
theorem setting?_blank {line : List UInt8} (hblanks : ∀ c ∈ line, c = 32 ∨ c = newline) : setting? line = none := by
  unfold setting?
  cases hrest : skipBlanks line with
  | nil => rfl
  | cons c rest =>
    have hfront : ((line.takeWhile (· != 0)).dropWhile isBlank).head? = some c := by
      rw [← skipBlanks, hrest]
      rfl
    have hmem : c ∈ line := by
      have hin : c ∈ skipBlanks line := hrest ▸ List.mem_cons_self
      exact (List.takeWhile_sublist _).subset ((List.dropWhile_sublist _).subset hin)
    have hnot := List.head?_dropWhile_not isBlank (line.takeWhile (· != 0))
    rw [hfront] at hnot
    rcases hblanks c hmem with rfl | rfl
    · exact absurd hnot (by decide)
    · exact if_pos (.inr (.inr (.inl rfl)))

/-- The first read ends in the comment; the second begins with the setting, and nothing but blanks is left. -/
theorem settings_longComment (n : Nat) : settings (longComment n) = [(ascii "enabled", ascii "1")] := by
  have hlen : (ascii "#" ++ List.replicate 126 120).length = 127 := rfl
  have hfirst : piece newline 127 (longComment n) =
      (ascii "#" ++ List.replicate 126 120, ascii "enabled=1" ++ (List.replicate n 32 ++ [newline])) := by
    rw [longComment, piece_body _ (by decide +kernel) (Nat.le_of_eq hlen), hlen, Nat.sub_self, piece, List.append_nil]
  have hblanks : ∀ c ∈ List.replicate n 32 ++ [newline], c = 32 ∨ c = newline := fun c hc => by
    rcases List.mem_append.mp hc with hc | hc
    · exact .inl (List.eq_of_mem_replicate hc)
    · exact .inr (List.mem_singleton.mp hc)
  generalize List.replicate n 32 ++ [newline] = blanks at hfirst hblanks
  have hsecond : piece newline 127 (ascii "enabled=1" ++ blanks) =
      (ascii "enabled=1" ++ (piece newline 118 blanks).1, (piece newline 118 blanks).2) :=
    piece_body blanks (by decide) (by decide)
  have hsplit : (piece newline 118 blanks).1 ++ (piece newline 118 blanks).2 = blanks := piece_append 118 blanks
  have hvalue : setting? (ascii "enabled=1" ++ (piece newline 118 blanks).1) = some (ascii "enabled", ascii "1") :=
    setting?_enabled fun c hc => hblanks c (hsplit ▸ List.mem_append_left _ hc)
  have hrest : (pieces newline 127 62 (piece newline 118 blanks).2).filterMap setting? = [] := by
    refine List.filterMap_eq_nil_iff.mpr fun line hline => setting?_blank fun c hc => ?_
    exact hblanks c (hsplit ▸ List.mem_append_right _ (subset_of_mem_pieces hline hc))
  have hreads : pieces newline 127 64 (longComment n) = (ascii "#" ++ List.replicate 126 120) ::
      (ascii "enabled=1" ++ (piece newline 118 blanks).1) :: pieces newline 127 62 (piece newline 118 blanks).2 := by
    have hne : longComment n ≠ [] := List.cons_ne_nil _ _
    have hne' : ascii "enabled=1" ++ blanks ≠ [] := List.cons_ne_nil _ _
    rw [pieces_succ hne, hfirst, pieces_succ hne', hsecond]
  have hnone : setting? (ascii "#" ++ List.replicate 126 120) = none := rfl
  show (pieces newline 127 64 (longComment n)).filterMap setting? = _
  rw [hreads, List.filterMap_cons_none hnone, List.filterMap_cons_some hvalue, hrest]

theorem long_comment_heard (n : Nat) : (longComment n).length = 137 + n ∧ 0 ∉ longComment n ∧
    lines newline (longComment n) = [longComment n] ∧ isComment (longComment n) = true ∧
    ∃ cfg cfg', impairmentConfigLoad (some (longComment n)) = .ok (.ok, cfg) ∧
      impairmentConfigLoad (some (withoutComments (longComment n))) = .ok (.ok, cfg') ∧ cfg ≠ cfg' := by
  have hbody : ∀ c ∈ ascii "#" ++ List.replicate 126 120 ++ (ascii "enabled=1" ++ List.replicate n 32),
      c ≠ newline ∧ c ≠ 0 := by
    intro c hc
    rw [List.mem_append, List.mem_append, List.mem_append, List.mem_replicate, List.mem_replicate] at hc
    rcases hc with (hc | ⟨-, rfl⟩) | (hc | ⟨-, rfl⟩)
    · revert c
      decide +kernel
    · decide
    · revert c
      decide +kernel
    · decide
  have hline : longComment n =
      ascii "#" ++ List.replicate 126 120 ++ (ascii "enabled=1" ++ List.replicate n 32) ++ [newline] := by
    simp only [longComment, List.append_assoc]
  have hlines : lines newline (longComment n) = [longComment n] := by
    rw [hline, lines_single fun hc => (hbody _ hc).1 rfl]
  have hcomment : isComment (longComment n) = true := rfl
  have hnone : withoutComments (longComment n) = [] := by
    rw [withoutComments, hlines]
    simp [hcomment]
  refine ⟨?_, ?_, hlines, hcomment, _, _, impairmentConfigLoad_eq _, impairmentConfigLoad_eq _, fun hsame => ?_⟩
  · rw [hline]
    simp [ascii]
    omega
  · rw [hline]
    intro hc
    rcases List.mem_append.mp hc with hc | hc
    · exact (hbody _ hc).2 rfl
    · exact absurd (List.mem_singleton.mp hc) (by decide)
  · rw [hnone, settings_longComment] at hsame
    have henabled := congrArg ImpairmentConfig.enabled hsame
    exact absurd henabled (by decide +kernel)

/-- The shortest of them: the file says `enabled = 1` in a comment, and is heard. -/
theorem comment_heard : 0 ∉ longComment 0 ∧ (lines newline (longComment 0)).all isComment = true ∧
    (lines newline (longComment 0)).length ≤ maxConfigLines ∧
    ∃ cfg cfg', impairmentConfigLoad (some (longComment 0)) = .ok (.ok, cfg) ∧
      impairmentConfigLoad (some (withoutComments (longComment 0))) = .ok (.ok, cfg') ∧ cfg ≠ cfg' := by
  obtain ⟨-, hnul, hlines, hcomment, hheard⟩ := long_comment_heard 0
  rw [hlines]
  exact ⟨hnul, by simp [hcomment], by decide, hheard⟩

end ImpairmentConfigLoader

end MessageEngine

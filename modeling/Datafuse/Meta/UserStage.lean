import Datafuse.Basic
import Mathlib.Data.List.Infix

set_option autoImplicit false

/-! # Stages and their copy options

`user_stage.rs`: the stages files are loaded from and written to.

* `UserStageInfo.stagePrefix`: where a stage keeps its files in the data operator. Its prefix is a
  path of directories below `/stage/` (`stagePrefix_data`). A stage name holding a `/` nests one
  stage's files inside another's, and so does a legacy internal stage named `internal` or `user`
  (`stagePrefix_nested`). Without those names, stages that differ in type or name have prefixes
  neither of which is a prefix of the other (`stagePrefix_disjoint`).
* `OnErrorMode.fromStr`: the `ON_ERROR` copy option. Upper-casing (`str::to_uppercase`) is an
  input. Every string that is not one of the three named modes reaches the numeric branch, which
  deletes every `SKIP_FILE_` and parses what is left as a `u64`. So `ABORT_STATEMENT`, which the
  grammar comment and the error message both list, is rejected (`fromStr_abortStatement`), while
  a bare numeral is accepted as `SKIP_FILE_<num>` (`fromStr_numeral`). A rejection quotes the
  upper-cased input (`OnErrorMode.fromStr_error_names_input`).
* `StageFileCompression.fromStr` and `StageFileFormatType.fromStr`: the `FILE_FORMAT` options. A
  rejected format is quoted as given (`StageFileFormatType.fromStr_error_names_input`).
-/

namespace Datafuse

/-! ## Stage types and prefixes -/

/-- `StageType`. -/
inductive StageType where
  | legacyInternal
  | external
  | internal
  | user
  deriving DecidableEq, Repr

/-- `Display for StageType`: a legacy internal stage prints as `Internal`. -/
def StageType.toString : StageType → String
  | .legacyInternal => "Internal"
  | .external => "External"
  | .internal => "Internal"
  | .user => "User"

/-- `UserStageInfo`, with the two fields `stage_prefix` reads. -/
structure UserStageInfo where
  stageName : String
  stageType : StageType

/-- `UserStageInfo::new_internal_stage`. -/
def UserStageInfo.newInternalStage (name : String) : UserStageInfo := ⟨name, .internal⟩

/-- `UserStageInfo::new_user_stage`. -/
def UserStageInfo.newUserStage (user : String) : UserStageInfo := ⟨user, .user⟩

/-- `UserStageInfo::with_stage_name`. -/
def UserStageInfo.withStageName (info : UserStageInfo) (name : String) : UserStageInfo :=
  { info with stageName := name }

/-- `UserStageInfo::stage_prefix`; on an external stage it panics. -/
def UserStageInfo.stagePrefix (info : UserStageInfo) : Result String :=
  match info.stageType with
  | .legacyInternal => .ok ("/stage/" ++ info.stageName ++ "/")
  | .external => .error (.panic ("internal error: entered unreachable code: " ++
      "stage_prefix should never be called on external stage, must be a bug"))
  | .internal => .ok ("/stage/internal/" ++ info.stageName ++ "/")
  | .user => .ok ("/stage/user/" ++ info.stageName ++ "/")

/-- The directories of a stage's prefix below `/stage/`. -/
def UserStageInfo.dirs (info : UserStageInfo) : List String :=
  match info.stageType with
  | .legacyInternal => [info.stageName]
  | .external => []
  | .internal => ["internal", info.stageName]
  | .user => ["user", info.stageName]

/-- A path of directories, each followed by `/`. -/
def joinDirs (dirs : List String) : List Char :=
  dirs.flatMap fun d => d.data ++ ['/']

/-- A stage's prefix is `/stage/` followed by its directories. -/
theorem stagePrefix_data {info : UserStageInfo} {p : String} (h : info.stagePrefix = .ok p) :
    p.data = "/stage/".data ++ joinDirs info.dirs := by
  rcases info with ⟨name, _ | _ | _ | _⟩ <;> cases h <;> simp [UserStageInfo.dirs, joinDirs]

/-- Two paths whose first directories hold no `/`: one is a prefix of the other only if the
first directories agree and the rest is a prefix. -/
theorem prefix_append_slash {n m r s : List Char} (hn : '/' ∉ n) (hm : '/' ∉ m)
    (h : n ++ '/' :: r <+: m ++ '/' :: s) : n = m ∧ r <+: s := by
  induction n generalizing m with
  | nil =>
      cases m with
      | nil => exact ⟨rfl, (List.prefix_cons_inj '/').mp h⟩
      | cons c m =>
          obtain ⟨rfl, -⟩ := List.cons_prefix_cons.mp h
          exact absurd (List.mem_cons_self _ m) hm
  | cons c n ih =>
      cases m with
      | nil =>
          obtain ⟨rfl, -⟩ := List.cons_prefix_cons.mp h
          exact absurd (List.mem_cons_self _ n) hn
      | cons d m =>
          rw [List.cons_append, List.cons_append, List.cons_prefix_cons] at h
          obtain ⟨rfl, h⟩ := h
          obtain ⟨rfl, hrs⟩ := ih (fun h' => hn (List.mem_cons_of_mem c h'))
            (fun h' => hm (List.mem_cons_of_mem c h')) h
          exact ⟨rfl, hrs⟩

/-- Over directories without `/`, a prefix of paths is a prefix of directory lists. -/
theorem prefix_joinDirs :
    ∀ {ds es : List String}, (∀ d ∈ ds, '/' ∉ d.data) → (∀ e ∈ es, '/' ∉ e.data) →
      joinDirs ds <+: joinDirs es → ds <+: es
  | [], _, _, _, _ => List.nil_prefix
  | d :: ds, [], _, _, h => by
      have := h.length_le
      simp [joinDirs] at this
  | d :: ds, e :: es, hds, hes, h => by
      simp only [joinDirs, List.flatMap_cons, List.append_assoc, List.singleton_append] at h
      obtain ⟨hde, hrest⟩ := prefix_append_slash (hds d (List.mem_cons_self _ _))
        (hes e (List.mem_cons_self _ _)) h
      rw [String.ext hde]
      exact (List.prefix_cons_inj e).mpr (prefix_joinDirs
        (fun d' hd' => hds d' (List.mem_cons_of_mem _ hd'))
        (fun e' he' => hes e' (List.mem_cons_of_mem _ he')) hrest)

/-- The names the amended statement admits: no `/`, and a legacy internal stage is not named
after the directories `internal` or `user`. -/
def UserStageInfo.WellNamed (info : UserStageInfo) : Prop :=
  '/' ∉ info.stageName.data ∧
    (info.stageType = .legacyInternal → info.stageName ≠ "internal" ∧ info.stageName ≠ "user")

theorem not_prefix_of_wellNamed {a b : UserStageInfo} {pa pb : String}
    (ha : a.stagePrefix = .ok pa) (hb : b.stagePrefix = .ok pb) (hwa : a.WellNamed)
    (hwb : b.WellNamed) (hne : (a.stageType, a.stageName) ≠ (b.stageType, b.stageName)) :
    ¬ pa.data <+: pb.data := by
  intro h
  rw [stagePrefix_data ha, stagePrefix_data hb, List.prefix_append_right_inj] at h
  rcases a with ⟨n, ta⟩
  rcases b with ⟨m, tb⟩
  obtain ⟨hna, hla⟩ := hwa
  obtain ⟨hnb, hlb⟩ := hwb
  have hdirs : UserStageInfo.dirs ⟨n, ta⟩ <+: UserStageInfo.dirs ⟨m, tb⟩ := prefix_joinDirs
    (by cases ta <;> simp [UserStageInfo.dirs, hna])
    (by cases tb <;> simp [UserStageInfo.dirs, hnb]) h
  cases ta <;> cases tb <;> simp_all [UserStageInfo.dirs, UserStageInfo.stagePrefix]

/-- **Stage prefixes are disjoint for well-named stages.** Take two stages that are not external,
whose names hold no `/`, and of which a legacy internal one is named neither `internal` nor
`user`. If they differ in type or in name, neither prefix is a prefix of the other. -/
theorem stagePrefix_disjoint (a b : UserStageInfo) (pa pb : String)
    (ha : a.stagePrefix = .ok pa) (hb : b.stagePrefix = .ok pb) (hwa : a.WellNamed)
    (hwb : b.WellNamed) (hne : (a.stageType, a.stageName) ≠ (b.stageType, b.stageName)) :
    ¬ pa.data <+: pb.data ∧ ¬ pb.data <+: pa.data :=
  ⟨not_prefix_of_wellNamed ha hb hwa hwb hne,
    not_prefix_of_wellNamed hb ha hwb hwa (Ne.symm hne)⟩

/-- The internal stages `a` and `ab` keep apart, although `a` is a prefix of `ab`. -/
theorem stagePrefix_disjoint_a_ab :
    (UserStageInfo.newInternalStage "a").stagePrefix = .ok "/stage/internal/a/" ∧
    (UserStageInfo.newInternalStage "ab").stagePrefix = .ok "/stage/internal/ab/" ∧
    (UserStageInfo.newInternalStage "a").WellNamed ∧
    (UserStageInfo.newInternalStage "ab").WellNamed ∧
    ¬ "/stage/internal/a/".data <+: "/stage/internal/ab/".data :=
  ⟨rfl, rfl, ⟨by decide, fun h => by cases h⟩, ⟨by decide, fun h => by cases h⟩,
    (stagePrefix_disjoint (UserStageInfo.newInternalStage "a") (UserStageInfo.newInternalStage "ab")
      "/stage/internal/a/" "/stage/internal/ab/" rfl rfl ⟨by decide, fun h => by cases h⟩
      ⟨by decide, fun h => by cases h⟩ (by decide)).1⟩

/-- **Counterexample**: stages of different names share storage. The internal stage `a` holds the
files of the internal stage `a/b`, and the legacy internal stage `internal` holds those of every
internal stage, such as `x`. -/
theorem stagePrefix_nested :
    (UserStageInfo.newInternalStage "a").stagePrefix = .ok "/stage/internal/a/" ∧
    (UserStageInfo.newInternalStage "a/b").stagePrefix = .ok "/stage/internal/a/b/" ∧
    "/stage/internal/a/".data <+: "/stage/internal/a/b/".data ∧
    (UserStageInfo.stagePrefix ⟨"internal", .legacyInternal⟩) = .ok "/stage/internal/" ∧
    (UserStageInfo.newInternalStage "x").stagePrefix = .ok "/stage/internal/x/" ∧
    "/stage/internal/".data <+: "/stage/internal/x/".data :=
  ⟨rfl, rfl, by decide, rfl, rfl, by decide⟩

/-! ## `ON_ERROR` -/

/-- `OnErrorMode`. -/
inductive OnErrorMode where
  | none
  | continue
  | skipFile
  | skipFileNum (n : UInt64)
  | abortStatement
  deriving DecidableEq, Repr

/-- The value of a run of decimal digits. -/
def decimalValue (digits : List Char) : Nat :=
  digits.foldl (fun acc c => acc * 10 + (c.toNat - '0'.toNat)) 0

/-- The digits `parse::<u64>` reads: the string without a leading `+`. -/
def stripPlus : List Char → List Char
  | '+' :: rest => rest
  | s => s

/-- `str::parse::<u64>`: an optional `+`, then one or more decimal digits of a value that fits in
64 bits. -/
def parseU64 (s : List Char) : Option UInt64 :=
  let digits := stripPlus s
  if digits ≠ [] ∧ digits.all Char.isDigit ∧ decimalValue digits < 2 ^ 64 then
    some (UInt64.ofNat (decimalValue digits))
  else none

/-- `str::replace(pat, rep)` on the characters of a string: every occurrence of `pat`, from left
to right and without overlap, replaced by `rep`. The source passes a pattern that is not empty;
an empty one leaves the string as it is. -/
def replaceAll (pat rep : List Char) : List Char → List Char
  | [] => []
  | c :: cs =>
      if _h : pat ≠ [] ∧ pat <+: c :: cs then
        rep ++ replaceAll pat rep ((c :: cs).drop pat.length)
      else c :: replaceAll pat rep cs
termination_by s => s.length
decreasing_by
  all_goals simp_wf
  have := List.length_pos.mpr _h.1
  omega

/-- A string in which the pattern does not occur is left as it is. -/
theorem replaceAll_of_not_infix {pat rep : List Char} :
    ∀ {s : List Char}, ¬ pat <:+: s → replaceAll pat rep s = s
  | [], _ => by rw [replaceAll]
  | c :: cs, hs => by
      rw [replaceAll, dif_neg (fun h => hs h.2.isInfix),
        replaceAll_of_not_infix (fun h => hs (List.infix_cons h))]

/-- An occurrence at the start is replaced, and the rest is read on. -/
theorem replaceAll_append {pat rep : List Char} (hpat : pat ≠ []) (rest : List Char) :
    replaceAll pat rep (pat ++ rest) = rep ++ replaceAll pat rep rest := by
  obtain ⟨p, ps, rfl⟩ := List.exists_cons_of_ne_nil hpat
  rw [List.cons_append, replaceAll, dif_pos ⟨hpat, List.prefix_append _ _⟩, ← List.cons_append,
    List.drop_left]

/-- `char::escape_unicode`: the character's code point in lower-case hexadecimal, without
leading zeros, between a backslash-`u` and braces. -/
def escapeUnicode (c : Char) : List Char :=
  ['\\', 'u', '\x7b'] ++ Nat.toDigits 16 c.toNat ++ ['\x7d']

/-- The escape `{:?}` writes for one character of a string (`char::escape_debug_ext`, double
quotes escaped and single quotes not): a quote, a backslash and the common control characters get
a backslash, the other control characters (`U+0000` to `U+001F` and `U+007F` to `U+009F`, which
are not printable) their `\u` escape, and every other character is written as it is. -/
def debugEscape (c : Char) : List Char :=
  match c with
  | '\x22' => ['\\', '\x22']
  | '\\' => ['\\', '\\']
  | '\n' => ['\\', 'n']
  | '\r' => ['\\', 'r']
  | '\t' => ['\\', 't']
  | '\x00' => ['\\', '0']
  | c => if c.toNat < 0x20 ∨ (0x7f ≤ c.toNat ∧ c.toNat < 0xa0) then escapeUnicode c else [c]

/-- `format!("{:?}", v)` for a string `v`: the string in quotes, each character escaped. -/
def debugStr (s : String) : String :=
  ⟨'\x22' :: s.data.flatMap debugEscape ++ ['\x22']⟩

/-- `OnErrorMode::from_str`, with `str::to_uppercase` as `toUppercase`. -/
def OnErrorMode.fromStr (toUppercase : String → String) (s : String) :
    Except String OnErrorMode :=
  match toUppercase s with
  | "" => .ok .none
  | "CONTINUE" => .ok .continue
  | "SKIP_FILE" => .ok .skipFile
  | v =>
      let numStr := replaceAll "SKIP_FILE_".data [] v.data
      match parseU64 numStr with
      | .some n => .ok (.skipFileNum n)
      | .none => .error ("Unknown OnError mode:" ++ debugStr v ++
          ", must one of \x7b CONTINUE | SKIP_FILE | SKIP_FILE_<num> | ABORT_STATEMENT \x7d")

/-- ASCII upper-casing, `str::to_ascii_uppercase`. -/
def asciiUppercase (s : String) : String := ⟨s.data.map Char.toUpper⟩

/-- Every string other than the three named modes goes to the numeric branch. -/
theorem OnErrorMode.fromStr_of_ne {toUppercase : String → String} {s v : String}
    (hs : toUppercase s = v) (h1 : v ≠ "") (h2 : v ≠ "CONTINUE") (h3 : v ≠ "SKIP_FILE") :
    OnErrorMode.fromStr toUppercase s =
      match parseU64 (replaceAll "SKIP_FILE_".data [] v.data) with
      | .some n => .ok (.skipFileNum n)
      | .none => .error ("Unknown OnError mode:" ++ debugStr v ++
          ", must one of \x7b CONTINUE | SKIP_FILE | SKIP_FILE_<num> | ABORT_STATEMENT \x7d") := by
  unfold OnErrorMode.fromStr
  rw [hs]
  split <;> simp_all

/-- Every rejection quotes the upper-cased input, as `{:?}` writes it. -/
theorem OnErrorMode.fromStr_error_names_input {toUppercase : String → String} {s msg : String}
    (h : OnErrorMode.fromStr toUppercase s = .error msg) :
    (debugStr (toUppercase s)).data <:+: msg.data := by
  unfold OnErrorMode.fromStr at h
  split at h <;> try (dsimp only at h; split at h)
  all_goals cases h
  simp only [String.data_append]
  exact List.infix_append _ _ _

/-- **`ABORT_STATEMENT` is rejected.** The mode the grammar comment lists and the error message
names is none of the modes the parser matches: it reaches the numeric branch, where there is no
`SKIP_FILE_` to delete and no number to parse. -/
theorem fromStr_abortStatement (toUppercase : String → String) (s : String)
    (hs : toUppercase s = "ABORT_STATEMENT") :
    OnErrorMode.fromStr toUppercase s = .error ("Unknown OnError mode:\"ABORT_STATEMENT\", " ++
      "must one of \x7b CONTINUE | SKIP_FILE | SKIP_FILE_<num> | ABORT_STATEMENT \x7d") := by
  rw [OnErrorMode.fromStr_of_ne hs (by decide) (by decide) (by decide),
    replaceAll_of_not_infix (by decide)]
  rfl

/-- `abort_statement` is rejected. -/
theorem fromStr_abortStatement_lower :
    asciiUppercase "abort_statement" = "ABORT_STATEMENT" ∧
    OnErrorMode.fromStr asciiUppercase "abort_statement" =
      .error ("Unknown OnError mode:\"ABORT_STATEMENT\", " ++
        "must one of \x7b CONTINUE | SKIP_FILE | SKIP_FILE_<num> | ABORT_STATEMENT \x7d") :=
  ⟨by decide, fromStr_abortStatement asciiUppercase "abort_statement" (by decide)⟩

/-- `parse::<u64>` reads a run of decimal digits whose value is below `2 ^ 64`. -/
theorem parseU64_digits {digits : List Char} (hne : digits ≠ [])
    (hdig : digits.all Char.isDigit = true) (hv : decimalValue digits < 2 ^ 64) :
    parseU64 digits = some (UInt64.ofNat (decimalValue digits)) := by
  obtain ⟨c, cs, rfl⟩ := List.exists_cons_of_ne_nil hne
  have hc : c ≠ '+' := by
    rintro rfl
    simp at hdig
  have hstrip : stripPlus (c :: cs) = c :: cs := by
    unfold stripPlus
    split
    · rename_i heq
      exact absurd (List.cons.inj heq).1 hc
    · rfl
  simp only [parseU64, hstrip]
  rw [if_pos ⟨hne, hdig, hv⟩]

theorem not_infix_skipFile {digits : List Char} (hdig : digits.all Char.isDigit = true) :
    ¬ "SKIP_FILE_".data <:+: digits := fun h =>
  absurd (List.all_eq_true.mp hdig 'S' (h.subset (by decide))) (by decide)

/-- **Numerals are accepted.** A run of digits of a value below `2 ^ 64` gives `SkipFileNum`,
with `SKIP_FILE_` in front as the grammar has it, and without it as well. -/
theorem fromStr_numeral (toUppercase : String → String) (s : String) (digits : List Char)
    (hne : digits ≠ []) (hdig : digits.all Char.isDigit = true)
    (hv : decimalValue digits < 2 ^ 64)
    (hs : toUppercase s = ⟨digits⟩ ∨ toUppercase s = ⟨"SKIP_FILE_".data ++ digits⟩) :
    OnErrorMode.fromStr toUppercase s = .ok (.skipFileNum (UInt64.ofNat (decimalValue digits))) := by
  have hnotdig : ∀ w : String, w.data.all Char.isDigit = false → (⟨digits⟩ : String) ≠ w := by
    rintro w hw rfl
    rw [hdig] at hw
    cases hw
  rcases hs with hs | hs
  · rw [OnErrorMode.fromStr_of_ne hs (fun h => hne (congrArg String.data h))
      (hnotdig _ (by decide)) (hnotdig _ (by decide)), replaceAll_of_not_infix
      (not_infix_skipFile hdig), parseU64_digits hne hdig hv]
  · have hlen : ∀ w : String, w.data.length < 10 → (⟨"SKIP_FILE_".data ++ digits⟩ : String) ≠ w := by
      rintro w hw rfl
      simp at hw
      omega
    rw [OnErrorMode.fromStr_of_ne hs (hlen _ (by decide)) (hlen _ (by decide)) (hlen _ (by decide)),
      replaceAll_append (by decide), List.nil_append, replaceAll_of_not_infix
      (not_infix_skipFile hdig), parseU64_digits hne hdig hv]


/-- `7` is accepted, as `SKIP_FILE_7` is. -/
theorem fromStr_numeral_seven :
    ['7'] ≠ [] ∧ ['7'].all Char.isDigit = true ∧ decimalValue ['7'] < 2 ^ 64 ∧
    (asciiUppercase "7" = ⟨['7']⟩ ∨ asciiUppercase "7" = ⟨"SKIP_FILE_".data ++ ['7']⟩) ∧
    OnErrorMode.fromStr asciiUppercase "7" = .ok (.skipFileNum 7) :=
  ⟨by decide, by decide, by decide, .inl rfl,
    fromStr_numeral asciiUppercase "7" ['7'] (by decide) (by decide) (by decide) (.inl rfl)⟩

/-! ## File format options -/

/-- `StageFileCompression`. -/
inductive StageFileCompression where
  | auto
  | gzip
  | bz2
  | brotli
  | zstd
  | deflate
  | rawDeflate
  | lzo
  | snappy
  | xz
  | none
  deriving DecidableEq, Repr

/-- `StageFileCompression::from_str`, with `str::to_lowercase` as `toLowercase`. -/
def StageFileCompression.fromStr (toLowercase : String → String) (s : String) :
    Except String StageFileCompression :=
  match toLowercase s with
  | "auto" => .ok .auto
  | "gzip" => .ok .gzip
  | "bz2" => .ok .bz2
  | "brotli" => .ok .brotli
  | "zstd" => .ok .zstd
  | "deflate" => .ok .deflate
  | "rawdeflate" | "raw_deflate" => .ok .rawDeflate
  | "lzo" => .ok .lzo
  | "snappy" => .ok .snappy
  | "xz" => .ok .xz
  | "none" => .ok .none
  | _ => .error ("Unknown file compression type, must one of \x7b auto | gzip | bz2 | brotli | " ++
      "zstd | deflate | raw_deflate | lzo | snappy | xz | none \x7d")

/-- `StageFileFormatType`. -/
inductive StageFileFormatType where
  | csv
  | tsv
  | json
  | ndJson
  | avro
  | orc
  | parquet
  | xml
  deriving DecidableEq, Repr

/-- `StageFileFormatType::from_str`, with `str::to_uppercase` as `toUppercase`. The messages quote
the input as it was given. -/
def StageFileFormatType.fromStr (toUppercase : String → String) (s : String) :
    Except String StageFileFormatType :=
  match toUppercase s with
  | "CSV" => .ok .csv
  | "TSV" | "TABSEPARATED" => .ok .tsv
  | "NDJSON" | "JSONEACHROW" => .ok .ndJson
  | "PARQUET" => .ok .parquet
  | "XML" => .ok .xml
  | "ORC" | "AVRO" | "JSON" => .error ("File format type \x27" ++ s ++
      "\x27 not implemented yet\x27, must be one of ( CSV | TSV | NDJSON | PARQUET | XML)")
  | _ => .error ("Unknown file format type \x27" ++ s ++
      "\x27, must be one of ( CSV | TSV | NDJSON | PARQUET | XML)")

/-- Every rejection quotes the input as it was given. -/
theorem StageFileFormatType.fromStr_error_names_input {toUppercase : String → String}
    {s msg : String} (h : StageFileFormatType.fromStr toUppercase s = .error msg) :
    s.data <:+: msg.data := by
  unfold fromStr at h
  split at h <;> cases h <;> simp only [String.data_append] <;> exact List.infix_append _ _ _

end Datafuse

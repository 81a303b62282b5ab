import Datafuse.Expression.Block

set_option autoImplicit false

/-! # Table snapshots

`TableSnapshot` (`meta/v3/snapshot.rs`): one immutable version of a table, linked to the
version it was derived from.

* Timestamps. `TableSnapshot.new` moves the clock reading past the parent's timestamp and
  truncates it to microseconds. The two helpers it calls are not among the source files and are
  modelled from the spec: a parent timestamp the clock has not passed is "nudged forward by the
  smallest representable increment", one nanosecond, "before truncation to microsecond
  resolution". Timestamps are nanoseconds since the epoch; the clock reading (`Utc::now()`) and
  the fresh identifier (`Uuid::new_v4()`) are inputs. From a parent whose timestamp is a whole
  number of microseconds, the new timestamp is never earlier (`fromPrevious_timestamp_le`), but
  it is later only when the clock reads at least a microsecond past the parent
  (`fromPrevious_timestamp_lt_iff`): two snapshots made within one microsecond carry the same
  timestamp (`fromPrevious_timestamp_same_microsecond`).
* Chains. Along a chain of snapshots each derived from the one before, timestamps never decrease
  (`chain_timestamps_monotone`).
* The envelope. `TableSnapshot.toBytes` writes the format version, the two scheme tags, the
  payload's length and the payload; the reader the spec describes (`readEnvelope`) recovers all
  four and rejects every proper prefix (`toBytes_envelope`).
* Segment ordinals. `TableSnapshot.buildSegmentIdMap` numbers the segments from the last one
  backwards; on distinct paths it is a bijection onto `0, …, n - 1` that a segment added at the
  front leaves unchanged (`buildSegmentIdMap_ordinals`).
-/

namespace Datafuse

/-- `SnapshotId`, a UUID, as a number. -/
abbrev SnapshotId := Nat

/-- `FormatVersion`. -/
abbrev FormatVersion := UInt64

/-- `Location`: the path of a segment and its format version. -/
abbrev Location := String × FormatVersion

/-- `ClusterKey`: the identifier and the definition of a cluster key. -/
abbrev ClusterKey := Nat × String

/-- `Statistics`, with the counters the light projection reads. -/
structure Statistics where
  rowCount : UInt64
  blockCount : UInt64
  indexSize : UInt64
  uncompressedByteSize : UInt64
  compressedByteSize : UInt64

/-- `TableSnapshot`; the timestamp is in nanoseconds since the epoch. -/
structure TableSnapshot where
  formatVersion : FormatVersion
  snapshotId : SnapshotId
  timestamp : Option Int
  prevSnapshotId : Option (SnapshotId × FormatVersion)
  schema : TableSchema
  summary : Statistics
  segments : List Location
  clusterKeyMeta : Option ClusterKey
  tableStatisticsLocation : Option String

/-- `TableSnapshot::VERSION`: the format of `v3`. -/
def TableSnapshot.version : FormatVersion := 3

/-- `TableSnapshotLite`: a snapshot without its segments, for scans over the history. -/
structure TableSnapshotLite where
  formatVersion : FormatVersion
  snapshotId : SnapshotId
  timestamp : Option Int
  prevSnapshotId : Option (SnapshotId × FormatVersion)
  rowCount : UInt64
  blockCount : UInt64
  indexSize : UInt64
  uncompressedByteSize : UInt64
  compressedByteSize : UInt64
  segmentCount : UInt64

/-- `From<(&TableSnapshot, FormatVersion)> for TableSnapshotLite`. -/
def TableSnapshotLite.ofSnapshot (value : TableSnapshot) (ver : FormatVersion) :
    TableSnapshotLite where
  formatVersion := ver
  snapshotId := value.snapshotId
  timestamp := value.timestamp
  prevSnapshotId := value.prevSnapshotId
  rowCount := value.summary.rowCount
  blockCount := value.summary.blockCount
  indexSize := value.summary.indexSize
  uncompressedByteSize := value.summary.uncompressedByteSize
  compressedByteSize := value.summary.compressedByteSize
  segmentCount := UInt64.ofNat value.segments.length

/-! ## Timestamps -/

/-- Modelled from the spec: `monotonically_increased_timestamp`. "If the parent's timestamp is
not strictly less than current wall-clock time, the new timestamp is nudged forward by the
smallest representable increment", one nanosecond. -/
def monotonicallyIncreasedTimestamp (timestamp : Int) (previousTimestamp : Option Int) : Int :=
  match previousTimestamp with
  | some prev => if prev < timestamp then timestamp else prev + 1
  | none => timestamp

/-- Modelled from the spec: `trim_timestamp_to_micro_second`, truncation to microsecond
resolution. -/
def trimTimestampToMicroSecond (timestamp : Int) : Int :=
  timestamp / 1000 * 1000

/-- `TableSnapshot::new`, at the clock reading `now`. -/
def TableSnapshot.new (now : Int) (snapshotId : SnapshotId) (prevTimestamp : Option Int)
    (prevSnapshotId : Option (SnapshotId × FormatVersion)) (schema : TableSchema)
    (summary : Statistics) (segments : List Location) (clusterKeyMeta : Option ClusterKey)
    (tableStatisticsLocation : Option String) : TableSnapshot :=
  let adjustedTimestamp := monotonicallyIncreasedTimestamp now prevTimestamp
  let trimmedTimestamp := trimTimestampToMicroSecond adjustedTimestamp
  { formatVersion := TableSnapshot.version, snapshotId, timestamp := some trimmedTimestamp,
    prevSnapshotId, schema, summary, segments, clusterKeyMeta, tableStatisticsLocation }

/-- `TableSnapshot::from_previous`, at the clock reading `now` and with the fresh identifier
`id`: every field is the parent's, but for the identifier, the link and the timestamp. -/
def TableSnapshot.fromPrevious (now : Int) (id : SnapshotId) (previous : TableSnapshot) :
    TableSnapshot :=
  TableSnapshot.new now id previous.timestamp
    (some (previous.snapshotId, previous.formatVersion)) previous.schema previous.summary
    previous.segments previous.clusterKeyMeta previous.tableStatisticsLocation

@[simp] theorem TableSnapshot.fromPrevious_timestamp (now : Int) (id : SnapshotId)
    (p : TableSnapshot) :
    (p.fromPrevious now id).timestamp =
      some (trimTimestampToMicroSecond (monotonicallyIncreasedTimestamp now p.timestamp)) :=
  rfl

@[simp] theorem TableSnapshot.fromPrevious_prevSnapshotId (now : Int) (id : SnapshotId)
    (p : TableSnapshot) :
    (p.fromPrevious now id).prevSnapshotId = some (p.snapshotId, p.formatVersion) :=
  rfl

@[simp] theorem TableSnapshot.fromPrevious_segments (now : Int) (id : SnapshotId)
    (p : TableSnapshot) : (p.fromPrevious now id).segments = p.segments :=
  rfl

/-- A timestamp is a whole number of microseconds. -/
def IsMicros (t : Int) : Prop := t % 1000 = 0

instance (t : Int) : Decidable (IsMicros t) := inferInstanceAs (Decidable (t % 1000 = 0))

theorem isMicros_trim (t : Int) : IsMicros (trimTimestampToMicroSecond t) := by
  unfold IsMicros trimTimestampToMicroSecond
  omega

/-- Truncation gives the microsecond `m` exactly on the readings from `m` to `m + 999` ns. -/
theorem trim_eq_iff {m t : Int} (hm : IsMicros m) :
    trimTimestampToMicroSecond t = m ↔ m ≤ t ∧ t < m + 1000 := by
  unfold IsMicros at hm
  unfold trimTimestampToMicroSecond
  omega

theorem le_trim_of_le {m t : Int} (hm : IsMicros m) (h : m ≤ t) :
    m ≤ trimTimestampToMicroSecond t := by
  unfold IsMicros at hm
  unfold trimTimestampToMicroSecond
  omega

/-- Over a parent whose timestamp is a whole number of microseconds, the new timestamp is one
too and is never earlier. -/
theorem fromPrevious_timestamp_le {p : TableSnapshot} {t : Int} (ht : p.timestamp = some t)
    (hm : IsMicros t) (now : Int) (id : SnapshotId) :
    ∃ t', (p.fromPrevious now id).timestamp = some t' ∧ IsMicros t' ∧ t ≤ t' := by
  refine ⟨_, rfl, isMicros_trim _, le_trim_of_le hm ?_⟩
  simp only [ht, monotonicallyIncreasedTimestamp]
  split <;> omega

/-- The new timestamp is later than a parent's whole microsecond `t` exactly when the clock
reads at least one microsecond past `t`. -/
theorem fromPrevious_timestamp_lt_iff {p : TableSnapshot} {t : Int} (ht : p.timestamp = some t)
    (hm : IsMicros t) (now : Int) (id : SnapshotId) :
    (p.fromPrevious now id).timestamp ≠ some t ↔ t + 1000 ≤ now := by
  rw [TableSnapshot.fromPrevious_timestamp, ne_eq, Option.some.injEq, trim_eq_iff hm]
  simp only [ht, monotonicallyIncreasedTimestamp]
  split <;> omega

/-- **Snapshots made within a microsecond share their timestamp.** When the clock reads less
than one microsecond past a parent's whole-microsecond timestamp `t` (or not past it at all),
`from_previous` gives the new snapshot the timestamp `t` again. -/
theorem fromPrevious_timestamp_same_microsecond (p : TableSnapshot) (t : Int)
    (ht : p.timestamp = some t) (hm : IsMicros t) (now : Int) (hnow : now < t + 1000)
    (id : SnapshotId) : (p.fromPrevious now id).timestamp = some t := by
  by_contra h
  exact absurd ((fromPrevious_timestamp_lt_iff ht hm now id).mp h) (by omega)

/-- A first snapshot, made at the clock reading of one microsecond. -/
def genesisSnapshot : TableSnapshot :=
  TableSnapshot.new 1000 0 none none ⟨[]⟩ ⟨0, 0, 0, 0, 0⟩ [] none none

/-- Its successor, made at the same clock reading, has the same timestamp. -/
theorem fromPrevious_timestamp_same_microsecond_genesis :
    genesisSnapshot.timestamp = some 1000 ∧ IsMicros 1000 ∧ (1000 : Int) < 1000 + 1000 ∧
      (genesisSnapshot.fromPrevious 1000 1).timestamp = some 1000 :=
  ⟨rfl, by decide, by decide,
    fromPrevious_timestamp_same_microsecond genesisSnapshot 1000 rfl (by decide) 1000
      (by decide) 1⟩

/-! ### Chains of snapshots -/

/-- The snapshots of a chain: a snapshot, then each one derived from the one before at the next
clock reading and with the next identifier. -/
def TableSnapshot.chain : TableSnapshot → List (Int × SnapshotId) → List TableSnapshot
  | p, [] => [p]
  | p, (now, id) :: rest => p :: (p.fromPrevious now id).chain rest

theorem TableSnapshot.chain_eq_cons (p : TableSnapshot) (steps : List (Int × SnapshotId)) :
    ∃ rest, p.chain steps = p :: rest := by
  cases steps <;> exact ⟨_, rfl⟩

/-- **Timestamps along a chain never decrease.** From a snapshot whose timestamp is a whole
number of microseconds, every snapshot of the chain has such a timestamp, each no earlier than
the one before. -/
theorem chain_timestamps_monotone (p : TableSnapshot) (t : Int) (ht : p.timestamp = some t)
    (hm : IsMicros t) (steps : List (Int × SnapshotId)) :
    ∃ ts : List Int, (p.chain steps).map (·.timestamp) = ts.map some ∧
      List.Chain' (· ≤ ·) ts ∧ ∀ t' ∈ ts, IsMicros t' := by
  induction steps generalizing p t with
  | nil => exact ⟨[t], by simp [TableSnapshot.chain, ht], .nil, by simpa⟩
  | cons step steps ih =>
      obtain ⟨now, id⟩ := step
      obtain ⟨t', ht', hm', hle⟩ := fromPrevious_timestamp_le ht hm now id
      obtain ⟨ts, hts, hchain, hall⟩ := ih _ t' ht' hm'
      obtain ⟨rest, hrest⟩ := (p.fromPrevious now id).chain_eq_cons steps
      cases ts with
      | nil => simp [hrest] at hts
      | cons t'' ts =>
          have ht'' : t'' = t' := by simp_all
          subst ht''
          refine ⟨t :: t'' :: ts, by simp [TableSnapshot.chain, ht, hts], .cons hle hchain, ?_⟩
          simpa [hm] using hall

/-- From the genesis snapshot, with the clock at 2 ms and then at 2.5 ms. -/
theorem chain_timestamps_monotone_genesis :
    genesisSnapshot.timestamp = some 1000 ∧ IsMicros 1000 ∧
    ∃ ts : List Int, (genesisSnapshot.chain [(2000000, 1), (2500000, 2)]).map (·.timestamp) =
        ts.map some ∧ List.Chain' (· ≤ ·) ts ∧ ∀ t' ∈ ts, IsMicros t' :=
  ⟨rfl, by decide, chain_timestamps_monotone genesisSnapshot 1000 rfl (by decide) _⟩

/-! ## The envelope -/

/-- A `Vec<u8>`: its bytes, of which there are at most `isize::MAX`. -/
structure ByteVec where
  bytes : List UInt8
  length_lt : bytes.length < 2 ^ 63

/-- What `to_bytes` takes from outside the file: the tags of `Encoding::default()` and
`Compression::default()` (`as u8`), and `encode` and `compress` under those schemes. -/
structure SnapshotFormat where
  encoding : UInt8
  compression : UInt8
  encode : TableSnapshot → Result (List UInt8)
  compress : List UInt8 → Result ByteVec

/-- `TableSnapshot::to_bytes`. -/
def TableSnapshot.toBytes (fmt : SnapshotFormat) (s : TableSnapshot) : Result (List UInt8) := do
  let data ← fmt.encode s
  let dataCompress ← fmt.compress data
  pure (toLeBytes 8 s.formatVersion.toNat ++ [fmt.encoding] ++ [fmt.compression] ++
    toLeBytes 8 dataCompress.bytes.length ++ dataCompress.bytes)

/-- Reading `width` little-endian bytes: the number and the bytes after them, if there are
enough. -/
def readLe (width : Nat) (bytes : List UInt8) : Option (Nat × List UInt8) :=
  if width ≤ bytes.length then some (fromLeBytes (bytes.take width), bytes.drop width) else none

/-- Modelled from the spec: the reader of the envelope "`[format_version: 8 bytes
little-endian][encoding: 1 byte][compression: 1 byte][payload_length: 8 bytes
little-endian][payload: payload_length bytes]`", which fails "if the declared payload length
does not match the actual remaining bytes". -/
def readEnvelope (bytes : List UInt8) : Option (FormatVersion × UInt8 × UInt8 × List UInt8) := do
  let (version, rest) ← readLe 8 bytes
  let (encoding, rest) ← readLe 1 rest
  let (compression, rest) ← readLe 1 rest
  let (length, payload) ← readLe 8 rest
  if payload.length = length then
    some (UInt64.ofNat version, UInt8.ofNat encoding, UInt8.ofNat compression, payload)
  else none

theorem readLe_append {width : Nat} {l : List UInt8} (hl : l.length = width)
    (rest : List UInt8) : readLe width (l ++ rest) = some (fromLeBytes l, rest) := by
  simp only [readLe, List.length_append, hl]
  rw [if_pos (by omega), List.take_left' hl, List.drop_left' hl]

theorem readLe_one (b : UInt8) (rest : List UInt8) : readLe 1 (b :: rest) = some (b.toNat, rest) :=
  by simp [readLe, fromLeBytes]

theorem readLe_eq_some {width : Nat} {bytes rest : List UInt8} {n : Nat}
    (h : readLe width bytes = some (n, rest)) :
    width ≤ bytes.length ∧ n = fromLeBytes (bytes.take width) ∧ rest = bytes.drop width := by
  unfold readLe at h
  split at h
  · cases h
    exact ⟨‹_›, rfl, rfl⟩
  · cases h

/-- What an accepted envelope is: a full header, then exactly as many bytes as it declares. -/
theorem readEnvelope_eq_some {bytes : List UInt8} {r : FormatVersion × UInt8 × UInt8 × List UInt8}
    (h : readEnvelope bytes = some r) :
    18 ≤ bytes.length ∧ (bytes.drop 18).length = fromLeBytes ((bytes.drop 10).take 8) := by
  simp only [readEnvelope, Option.bind_eq_bind] at h
  obtain ⟨⟨_, r1⟩, h1, h⟩ := Option.bind_eq_some.mp h
  obtain ⟨⟨_, r2⟩, h2, h⟩ := Option.bind_eq_some.mp h
  obtain ⟨⟨_, r3⟩, h3, h⟩ := Option.bind_eq_some.mp h
  obtain ⟨⟨len, payload⟩, h4, h⟩ := Option.bind_eq_some.mp h
  obtain ⟨hl1, -, rfl⟩ := readLe_eq_some h1
  obtain ⟨hl2, -, rfl⟩ := readLe_eq_some h2
  obtain ⟨hl3, -, rfl⟩ := readLe_eq_some h3
  obtain ⟨hl4, rfl, rfl⟩ := readLe_eq_some h4
  split at h
  · simp only [List.drop_drop, List.length_drop] at *
    exact ⟨by omega, by simpa [List.drop_drop] using ‹_›⟩
  · cases h

/-- A proper prefix of an accepted envelope is rejected: it ends inside the header, or it
declares more bytes than remain. -/
theorem readEnvelope_properPrefix_eq_none {bytes pre : List UInt8}
    {r : FormatVersion × UInt8 × UInt8 × List UInt8} (h : readEnvelope bytes = some r)
    (hpre : pre <+: bytes) (hne : pre ≠ bytes) :
    readEnvelope pre = none ∧
      (pre.length < 18 ∨ (pre.drop 18).length < fromLeBytes ((pre.drop 10).take 8)) := by
  obtain ⟨h18, hdecl⟩ := readEnvelope_eq_some h
  have hlen : pre.length < bytes.length := by
    by_contra hge
    exact hne (hpre.eq_of_length_le (by omega))
  have hreason : pre.length < 18 ∨ (pre.drop 18).length < fromLeBytes ((pre.drop 10).take 8) := by
    by_cases hshort : pre.length < 18
    · exact .inl hshort
    · have hheader : (pre.drop 10).take 8 = (bytes.drop 10).take 8 := by
        rw [List.prefix_iff_eq_take.mp hpre, List.drop_take, List.take_take,
          Nat.min_eq_left (by omega)]
      rw [hheader, ← hdecl]
      simp only [List.length_drop]
      omega
  refine ⟨?_, hreason⟩
  cases hr : readEnvelope pre with
  | none => rfl
  | some _ =>
      obtain ⟨h18', hdecl'⟩ := readEnvelope_eq_some hr
      omega

/-- The reader recovers the four parts of an envelope whose payload has fewer than `2 ^ 64`
bytes. -/
theorem readEnvelope_layout (version : FormatVersion) (encoding compression : UInt8)
    (payload : List UInt8) (hp : payload.length < 2 ^ 64) :
    readEnvelope (toLeBytes 8 version.toNat ++ [encoding] ++ [compression] ++
      toLeBytes 8 payload.length ++ payload) = some (version, encoding, compression, payload) := by
  have hver := readLe_append (length_toLeBytes 8 version.toNat)
  have hlen := readLe_append (length_toLeBytes 8 payload.length) payload
  have hp' : payload.length < 256 ^ 8 := hp
  simp only [readEnvelope, List.append_assoc, List.cons_append, List.nil_append, hver, readLe_one, hlen,
    fromLeBytes_toLeBytes, uInt8_ofNat_toNat, uInt64_ofNat_toNat_mod, Nat.mod_eq_of_lt hp',
    Option.bind_eq_bind, Option.some_bind, if_true]

/-- **The snapshot envelope.** Whatever the snapshot and whatever payload `encode` and
`compress` give, `to_bytes` writes the layout of the spec, the reader recovers the format version,
the two tags and the payload, the declared length is the number of bytes after the header, and
every proper prefix is rejected: it ends inside the header, or declares more bytes than
remain. -/
theorem toBytes_envelope (fmt : SnapshotFormat) (s : TableSnapshot) (data : List UInt8)
    (p : ByteVec) (hencode : fmt.encode s = .ok data) (hcompress : fmt.compress data = .ok p) :
    ∃ bytes, s.toBytes fmt = .ok bytes ∧
      bytes = toLeBytes 8 s.formatVersion.toNat ++ [fmt.encoding] ++ [fmt.compression] ++
        toLeBytes 8 p.bytes.length ++ p.bytes ∧
      readEnvelope bytes = some (s.formatVersion, fmt.encoding, fmt.compression, p.bytes) ∧
      fromLeBytes ((bytes.drop 10).take 8) = (bytes.drop 18).length ∧
      ∀ pre, pre <+: bytes → pre ≠ bytes →
        readEnvelope pre = none ∧
          (pre.length < 18 ∨ (pre.drop 18).length < fromLeBytes ((pre.drop 10).take 8)) := by
  have hp : p.bytes.length < 2 ^ 64 := Nat.lt_trans p.length_lt (by decide)
  have hread := readEnvelope_layout s.formatVersion fmt.encoding fmt.compression p.bytes hp
  have hdecl := readEnvelope_eq_some hread
  exact ⟨_, by simp [TableSnapshot.toBytes, hencode, hcompress, bind, Except.bind, pure,
    Except.pure], rfl, hread, hdecl.2.symm, fun pre hpre hne => readEnvelope_properPrefix_eq_none hread hpre hne⟩

/-- A format whose encoding writes three bytes and whose compression keeps its input. -/
def sampleFormat : SnapshotFormat where
  encoding := 1
  compression := 0
  encode _ := .ok [1, 2, 3]
  compress data :=
    if h : data.length < 2 ^ 63 then .ok ⟨data, h⟩ else .error (.internal "payload too long")

/-- The envelope of the first snapshot under that format reads back. -/
theorem toBytes_envelope_genesis :
    sampleFormat.encode genesisSnapshot = .ok [1, 2, 3] ∧
    sampleFormat.compress [1, 2, 3] = .ok ⟨[1, 2, 3], by decide⟩ ∧
    ∃ bytes, genesisSnapshot.toBytes sampleFormat = .ok bytes ∧
      readEnvelope bytes = some (3, 1, 0, [1, 2, 3]) := by
  obtain ⟨bytes, htoBytes, -, hread, -⟩ :=
    toBytes_envelope sampleFormat genesisSnapshot [1, 2, 3] ⟨[1, 2, 3], by decide⟩ rfl rfl
  exact ⟨rfl, rfl, bytes, htoBytes, hread⟩

/-! ## Segment ordinals -/

/-- `TableSnapshot::build_segment_id_map`: the path of the segment at position `i` of `n` gets
the ordinal `n - i - 1`. -/
def TableSnapshot.buildSegmentIdMap (s : TableSnapshot) : HashMap String Nat :=
  let segmentCount := s.segments.length
  s.segments.enum.foldl (fun m p => m.insert p.2.1 (segmentCount - p.1 - 1)) .empty

/-- The map as the insertion of one entry per segment: its path and its ordinal. -/
theorem TableSnapshot.buildSegmentIdMap_eq (s : TableSnapshot) :
    s.buildSegmentIdMap =
      (s.segments.enum.map fun p => (p.2.1, s.segments.length - p.1 - 1)).foldl
        (fun m e => m.insert e.1 e.2) .empty := by
  rw [buildSegmentIdMap, List.foldl_map]

/-- On distinct paths, the map holds exactly the ordinal `n - 1 - i` under the path of the
segment at position `i`. -/
theorem TableSnapshot.buildSegmentIdMap_get {s : TableSnapshot}
    (hnd : (s.segments.map (·.1)).Nodup) (k : String) (o : Nat) :
    s.buildSegmentIdMap.get k = some o ↔
      ∃ i loc, s.segments[i]? = some loc ∧ loc.1 = k ∧ o = s.segments.length - 1 - i := by
  have hkeys : ((s.segments.enum.map fun p => (p.2.1, s.segments.length - p.1 - 1)).map
      (·.1)) = s.segments.map (·.1) := by
    conv_rhs => rw [← List.enum_map_snd s.segments]
    simp only [List.map_map]
    rfl
  have hmem : ∀ i loc, s.segments[i]? = some loc →
      s.buildSegmentIdMap.get loc.1 = some (s.segments.length - 1 - i) := by
    intro i loc h
    have hi := (List.getElem?_eq_some_iff.mp h).1
    rw [buildSegmentIdMap_eq, HashMap.get_foldl_insert_of_mem
      (s.segments.enum.map fun p => (p.2.1, s.segments.length - p.1 - 1)) .empty
      (by rw [hkeys]; exact hnd)
      (List.mem_map.mpr ⟨(i, loc), List.mem_enum_iff_getElem?.mpr h, rfl⟩)]
    congr 1
    omega
  constructor
  · intro h
    by_cases hk : k ∈ s.segments.map (·.1)
    · obtain ⟨loc, hloc, rfl⟩ := List.mem_map.mp hk
      obtain ⟨i, hi⟩ := List.mem_iff_getElem?.mp hloc
      rw [hmem i loc hi, Option.some.injEq] at h
      exact ⟨i, loc, hi, rfl, h.symm⟩
    · rw [buildSegmentIdMap_eq, HashMap.get_foldl_insert_of_not_mem _ _
        (by rw [hkeys]; exact hk)] at h
      cases h
  · rintro ⟨i, loc, hi, rfl, rfl⟩
    exact hmem i loc hi

/-- **Segment ordinals.** On a snapshot whose segment paths are distinct, with `n` segments,
`build_segment_id_map` maps the path of the segment at position `i` to `n - 1 - i` and has no
other keys; it is a bijection from the paths onto `0, …, n - 1`. A segment added at the front,
with a new path, gets the ordinal `n` and leaves every other ordinal as it was. -/
theorem buildSegmentIdMap_ordinals (s : TableSnapshot) (hnd : (s.segments.map (·.1)).Nodup) :
    (∀ i loc, s.segments[i]? = some loc →
      s.buildSegmentIdMap.get loc.1 = some (s.segments.length - 1 - i)) ∧
    (∀ k o, s.buildSegmentIdMap.get k = some o →
      ∃ i loc, s.segments[i]? = some loc ∧ loc.1 = k ∧ o = s.segments.length - 1 - i) ∧
    (∀ k k' o, s.buildSegmentIdMap.get k = some o → s.buildSegmentIdMap.get k' = some o →
      k = k') ∧
    (∀ o < s.segments.length, ∃ k, s.buildSegmentIdMap.get k = some o) ∧
    ∀ l : Location, l.1 ∉ s.segments.map (·.1) →
      (∀ k ∈ s.segments.map (·.1),
        { s with segments := l :: s.segments }.buildSegmentIdMap.get k =
          s.buildSegmentIdMap.get k) ∧
      { s with segments := l :: s.segments }.buildSegmentIdMap.get l.1 =
        some s.segments.length := by
  have hget := TableSnapshot.buildSegmentIdMap_get hnd
  refine ⟨fun i loc h => (hget _ _).mpr ⟨i, loc, h, rfl, rfl⟩, fun k o => (hget k o).mp,
    fun k k' o h h' => ?_, fun o ho => ?_, fun l hl => ?_⟩
  · -- one ordinal, one path
    obtain ⟨i, loc, hi, rfl, rfl⟩ := (hget k o).mp h
    obtain ⟨j, loc', hj, rfl, hij⟩ := (hget k' _).mp h'
    have hlt := (List.getElem?_eq_some_iff.mp hi).1
    have hlt' := (List.getElem?_eq_some_iff.mp hj).1
    obtain rfl : i = j := by omega
    rw [hi, Option.some.injEq] at hj
    rw [hj]
  · -- every ordinal below `n` is taken
    obtain ⟨loc, hloc⟩ : ∃ loc, s.segments[s.segments.length - 1 - o]? = some loc :=
      ⟨_, List.getElem?_eq_getElem (by omega)⟩
    exact ⟨loc.1, (hget _ _).mpr ⟨_, loc, hloc, rfl, by omega⟩⟩
  · -- a segment added at the front
    have hnd' : (({ s with segments := l :: s.segments } : TableSnapshot).segments.map
        (·.1)).Nodup := List.nodup_cons.mpr ⟨hl, hnd⟩
    have hget' := TableSnapshot.buildSegmentIdMap_get hnd'
    refine ⟨fun k hk => ?_, (hget' _ _).mpr ⟨0, l, by simp, rfl, by simp⟩⟩
    obtain ⟨loc, hloc, rfl⟩ := List.mem_map.mp hk
    obtain ⟨i, hi⟩ := List.mem_iff_getElem?.mp hloc
    have hlt := (List.getElem?_eq_some_iff.mp hi).1
    rw [(hget _ _).mpr ⟨i, loc, hi, rfl, rfl⟩]
    exact (hget' _ _).mpr ⟨i + 1, loc, by simpa using hi, rfl, by simp; omega⟩

/-- The spec's scenario: the segments `[A, B, C]` get the ordinals `{C: 0, B: 1, A: 2}`. -/
theorem buildSegmentIdMap_ordinals_abc :
    let s := { genesisSnapshot with segments := [("A", 3), ("B", 3), ("C", 3)] }
    (s.segments.map (·.1)).Nodup ∧ s.buildSegmentIdMap.get "C" = some 0 ∧
      s.buildSegmentIdMap.get "B" = some 1 ∧ s.buildSegmentIdMap.get "A" = some 2 :=
  let hord := (buildSegmentIdMap_ordinals
    { genesisSnapshot with segments := [("A", 3), ("B", 3), ("C", 3)] } (by decide)).1
  ⟨by decide, hord 2 ("C", 3) rfl, hord 1 ("B", 3) rfl, hord 0 ("A", 3) rfl⟩

end Datafuse

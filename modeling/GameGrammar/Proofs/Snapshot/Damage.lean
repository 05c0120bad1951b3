import GameGrammar.Proofs.Snapshot.RoundTrip

/-! # Damaged snapshots

A snapshot is checked part by part in a fixed order. Each byte belongs to one of the parts, and so
it is known beforehand what a snapshot is refused for if it is cut short or if a byte of it has
changed. The payload is protected by its checksum only. -/

namespace GameGrammar.Snapshot

/-! ## Parts of a snapshot -/

/-- The bytes from `start` on, `width` of them. -/
def part (bytes : Bytes) (start width : Nat) : Bytes :=
  (bytes.drop start).take width

theorem field_eq_part (bytes : Bytes) (start width : Nat) :
    Header.field bytes start width = ofLittleEndian (part bytes start width) :=
  rfl

section

variable {bytes : Bytes} {start width i : Nat} {b : UInt8}

theorem part_take {k : Nat} (h : start + width ≤ k) :
    part (bytes.take k) start width = part bytes start width := by
  rw [part, part, List.drop_take, List.take_take, Nat.min_eq_left (by omega)]

theorem part_set_outside (h : i < start ∨ start + width ≤ i) :
    part (bytes.set i b) start width = part bytes start width := by
  rcases h with h | h
  · rw [part, List.drop_set_of_lt h, part]
  · rw [part, List.drop_set, if_neg (by omega), List.take_set_of_le (by omega), part]

theorem length_part (h : start + width ≤ bytes.length) :
    (part bytes start width).length = width := by
  rw [part, List.length_take, List.length_drop]
  omega

/-- A part in which a byte has changed is another one. -/
theorem part_set_inside (hi : i < bytes.length) (hb : b ≠ bytes[i]) (hstart : start ≤ i)
    (hend : i < start + width) : part (bytes.set i b) start width ≠ part bytes start width := by
  intro h
  have hlt : i - start < width := by omega
  have hat : start + (i - start) = i := by omega
  have hget := congrArg (·[i - start]?) h
  simp only [part, List.getElem?_take_of_lt hlt, List.getElem?_drop, hat,
    List.getElem?_set_self hi, List.getElem?_eq_getElem hi, Option.some.injEq] at hget
  exact hb hget

end

/-- Numbers of the same width are the same only if their bytes are. -/
theorem ofLittleEndian_inj {x y : Bytes} (hlen : x.length = y.length)
    (h : ofLittleEndian x = ofLittleEndian y) : x = y := by
  induction x generalizing y with
  | nil => exact (List.length_eq_zero_iff.mp hlen.symm).symm
  | cons a x ih =>
      cases y with
      | nil => cases hlen
      | cons b y =>
          have ha := a.toNat_lt
          have hb := b.toNat_lt
          simp only [ofLittleEndian] at h
          have hhead : a = b := UInt8.toNat_inj.mp (by omega)
          have htail : x = y := ih (Nat.succ.inj hlen) (by omega)
          rw [hhead, htail]

/-- A number in which a byte has changed is another one. -/
theorem field_set_inside {bytes : Bytes} {start width i : Nat} {b : UInt8}
    (hi : i < bytes.length) (hb : b ≠ bytes[i]) (hstart : start ≤ i) (hend : i < start + width)
    (hlen : start + width ≤ bytes.length) :
    Header.field (bytes.set i b) start width ≠ Header.field bytes start width := by
  intro h
  refine part_set_inside hi hb hstart hend (ofLittleEndian_inj ?_ h)
  rw [length_part hlen, length_part (by rwa [List.length_set])]

/-! ## The order of the checks -/

namespace Header

/-- The header as it stands in the bytes, whether or not they are a snapshot. -/
def standing (bytes : Bytes) : Header where
  version := field bytes 4 2
  ruleCount := field bytes 8 4
  payloadLength := field bytes 12 4
  checksum := part bytes 16 16

theorem read_eq_ok_iff {bytes : Bytes} {h : Header} :
    read bytes = .ok h ↔
      headerSize ≤ bytes.length ∧ part bytes 0 4 = mark ∧ h = standing bytes := by
  constructor
  · intro hread
    unfold read at hread
    split at hread
    · cases hread
    · next hlen =>
        split at hread
        · cases hread
        · next hmark =>
            exact ⟨Nat.not_lt.mp hlen, Decidable.not_not.mp hmark, (Except.ok.inj hread).symm⟩
  · rintro ⟨hlen, hmark, rfl⟩
    have htake : bytes.take 4 = mark := hmark
    rw [read, if_neg (Nat.not_lt.mpr hlen), if_neg (not_not_intro htake)]
    rfl

theorem read_standing {bytes : Bytes} (hlen : headerSize ≤ bytes.length)
    (hmark : part bytes 0 4 = mark) : read bytes = .ok (standing bytes) :=
  read_eq_ok_iff.mpr ⟨hlen, hmark, rfl⟩

end Header

section

variable {bytes : Bytes}

theorem decode_short (h : bytes.length < headerSize) :
    decode bytes = .error (.length headerSize bytes.length) := by
  have hread : Header.read bytes = .error (.length headerSize bytes.length) := if_pos h
  simp only [decode, contents, hread, bind, Except.bind]

theorem decode_unmarked (hlen : headerSize ≤ bytes.length) (hmark : part bytes 0 4 ≠ mark) :
    decode bytes = .error .mark := by
  have htake : bytes.take 4 ≠ mark := hmark
  have hread : Header.read bytes = .error .mark := by
    rw [Header.read, if_neg (Nat.not_lt.mpr hlen), if_pos htake]
  simp only [decode, contents, hread, bind, Except.bind]

/-- The bytes are as many as a header has, and they start with the mark. -/
structure Marked (bytes : Bytes) : Prop where
  length : headerSize ≤ bytes.length
  mark : part bytes 0 4 = Snapshot.mark

namespace Marked

theorem decode_error (hm : Marked bytes) {refusal : Refusal}
    (h : (Header.standing bytes).payload bytes = .error refusal) :
    decode bytes = .error refusal := by
  simp only [decode, contents, Header.read_standing hm.length hm.mark, h, bind, Except.bind]

theorem decode_version (hm : Marked bytes) (hversion : Header.field bytes 4 2 ≠ formatVersion) :
    decode bytes = .error (.version (Header.field bytes 4 2)) :=
  hm.decode_error (if_pos hversion)

/-- The payload is too short for the length that the header gives it. -/
theorem decode_incomplete (hm : Marked bytes) (hversion : Header.field bytes 4 2 = formatVersion)
    (hlen : (bytes.drop headerSize).length < Header.field bytes 12 4) :
    decode bytes = .error (.length (Header.field bytes 12 4) (bytes.drop headerSize).length) := by
  refine hm.decode_error ?_
  have hv : ¬(Header.standing bytes).version ≠ formatVersion := not_not_intro hversion
  exact (if_neg hv).trans (if_pos hlen)

end Marked

/-- The version is right, and the payload is as long as the header says at least. -/
structure Complete (bytes : Bytes) : Prop extends Marked bytes where
  version : Header.field bytes 4 2 = formatVersion
  enough : Header.field bytes 12 4 ≤ (bytes.drop headerSize).length

/-- The bytes that the header takes for the payload. -/
def presumedPayload (bytes : Bytes) : Bytes :=
  (bytes.drop headerSize).take (Header.field bytes 12 4)

namespace Complete

/-- Only the checksum is left to be checked. -/
theorem payload_eq (hc : Complete bytes) : (Header.standing bytes).payload bytes =
    if checksum (presumedPayload bytes) ≠ part bytes 16 16 then .error .checksum
    else .ok (presumedPayload bytes) := by
  have hversion : ¬(Header.standing bytes).version ≠ formatVersion := not_not_intro hc.version
  have henough : ¬(bytes.drop headerSize).length < (Header.standing bytes).payloadLength :=
    Nat.not_lt.mpr hc.enough
  exact (if_neg hversion).trans (if_neg henough)

/-- The payload is not the one that the checksum was taken of. -/
theorem decode_corrupt (hc : Complete bytes)
    (hsum : checksum (presumedPayload bytes) ≠ part bytes 16 16) :
    decode bytes = .error .checksum :=
  hc.decode_error (hc.payload_eq.trans (if_pos hsum))

/-- The payload is unharmed, but the header counts other rules than it holds. -/
theorem decode_miscounted (hc : Complete bytes)
    (hsum : checksum (presumedPayload bytes) = part bytes 16 16) {p : Payload} {left : Bytes}
    (hread : readPayload (presumedPayload bytes) = some (p, left))
    (hcount : Header.field bytes 8 4 ≠ p.rules.length) :
    decode bytes =
      .error (.invalid (.headerRules (Header.field bytes 8 4) p.rules.length)) := by
  have hpayload : (Header.standing bytes).payload bytes = .ok (presumedPayload bytes) :=
    hc.payload_eq.trans (if_neg (not_not_intro hsum))
  have hrules : ¬(Header.standing bytes).ruleCount = p.rules.length := hcount
  simp only [decode, contents, Header.read_standing hc.length hc.mark, hpayload, hread,
    if_neg hrules, bind, Except.bind]
  rfl

end Complete

/-- Nothing but the header and the bytes behind it decides what is read. -/
theorem decode_congr {x y : Bytes} (hread : Header.read x = Header.read y)
    (hbody : x.drop headerSize = y.drop headerSize) : decode x = decode y := by
  simp only [decode, contents, Header.payload, hread, hbody]

end

/-! ## Whole snapshots -/

/-- Header and payload of a snapshot agree with one another, and nothing follows the payload. -/
structure Intact (bytes payload : Bytes) (ruleCount : Nat) : Prop where
  length : bytes.length = headerSize + payload.length
  mark : part bytes 0 4 = Snapshot.mark
  version : Header.field bytes 4 2 = formatVersion
  ruleCount : Header.field bytes 8 4 = ruleCount
  payloadLength : Header.field bytes 12 4 = payload.length
  checksum : part bytes 16 16 = Snapshot.checksum payload
  body : bytes.drop headerSize = payload

/-- A snapshot is intact if neither of the numbers in its header has been cut down. -/
theorem encode_intact {g : Grammar} {source : Option String} (hsize : g.size < 2 ^ 32)
    (hlen : (payloadOf g source).write.length < 2 ^ 32) :
    Intact (encode g source) (payloadOf g source).write g.size := by
  rw [encode_eq]
  generalize (payloadOf g source).write = payload at hlen ⊢
  have hfits := Header.ofPayload_fits payload g.size
  obtain ⟨-, hmark, hstanding⟩ :=
    Header.read_eq_ok_iff.mp (Header.read_append hfits payload)
  have hrules : saturated g.size = g.size := Nat.min_eq_left (by omega)
  have hpayload : saturated payload.length = payload.length := Nat.min_eq_left (by omega)
  exact {
    length := by rw [List.length_append, Header.write_length hfits]
    mark := hmark
    version := (congrArg Header.version hstanding).symm
    ruleCount := (congrArg Header.ruleCount hstanding).symm.trans hrules
    payloadLength := (congrArg Header.payloadLength hstanding).symm.trans hpayload
    checksum := (congrArg Header.checksum hstanding).symm
    body := List.drop_left' (Header.write_length hfits) }

namespace Intact

variable {bytes payload : Bytes} {n : Nat}

theorem long (hi : Intact bytes payload n) : headerSize ≤ bytes.length := by
  have := hi.length
  omega

/-! ## Snapshots that are cut short -/

/-- The header goes first, and without all of it nothing is known of the payload. -/
theorem decode_take (hi : Intact bytes payload n) {k : Nat} (hk : k < bytes.length) :
    decode (bytes.take k) = .error (if k < headerSize then .length headerSize k
      else .length payload.length (k - headerSize)) := by
  have hlen := hi.length
  have htake : (bytes.take k).length = k := List.length_take_of_le (by omega)
  by_cases h : k < headerSize
  · have hshort : (bytes.take k).length < headerSize := by omega
    rw [if_pos h, decode_short hshort, htake]
  · have hheader : headerSize ≤ k := Nat.not_lt.mp h
    have hm : Marked (bytes.take k) :=
      ⟨by omega, (part_take (by simp only [headerSize] at hheader; omega)).trans hi.mark⟩
    have hfield (start width : Nat) (hend : start + width ≤ headerSize) :
        Header.field (bytes.take k) start width = Header.field bytes start width := by
      rw [field_eq_part, part_take (by omega), field_eq_part]
    have hbody : ((bytes.take k).drop headerSize).length = k - headerSize := by
      rw [List.length_drop, htake]
    have hneeded : Header.field (bytes.take k) 12 4 = payload.length :=
      (hfield 12 4 (by decide)).trans hi.payloadLength
    have hincomplete := hm.decode_incomplete ((hfield 4 2 (by decide)).trans hi.version) (by omega)
    rw [if_neg h, hincomplete, hneeded, hbody]

/-! ## Snapshots with a changed byte -/

section

variable {i : Nat} {b : UInt8}

theorem set_long (hi : Intact bytes payload n) : headerSize ≤ (bytes.set i b).length := by
  rw [List.length_set]
  exact hi.long

/-- Behind the mark nothing harms the mark. -/
theorem set_marked (hi : Intact bytes payload n) (h4 : 4 ≤ i) : Marked (bytes.set i b) :=
  ⟨hi.set_long, (part_set_outside (.inr h4)).trans hi.mark⟩

theorem set_version (hi : Intact bytes payload n) (h : i < 4 ∨ 6 ≤ i) :
    Header.field (bytes.set i b) 4 2 = formatVersion :=
  (congrArg ofLittleEndian (part_set_outside h)).trans hi.version

theorem set_ruleCount (hi : Intact bytes payload n) (h : i < 8 ∨ 12 ≤ i) :
    Header.field (bytes.set i b) 8 4 = n :=
  (congrArg ofLittleEndian (part_set_outside h)).trans hi.ruleCount

theorem set_payloadLength (hi : Intact bytes payload n) (h : i < 12 ∨ 16 ≤ i) :
    Header.field (bytes.set i b) 12 4 = payload.length :=
  (congrArg ofLittleEndian (part_set_outside h)).trans hi.payloadLength

theorem set_checksum (hi : Intact bytes payload n) (h : i < 16 ∨ 32 ≤ i) :
    part (bytes.set i b) 16 16 = Snapshot.checksum payload :=
  (part_set_outside h).trans hi.checksum

theorem set_body (hi : Intact bytes payload n) (h : i < headerSize) :
    (bytes.set i b).drop headerSize = payload := by
  rw [List.drop_set_of_lt h, hi.body]

theorem set_complete (hi : Intact bytes payload n) (h6 : 6 ≤ i) (h : i < 12 ∨ 16 ≤ i) :
    Complete (bytes.set i b) where
  toMarked := hi.set_marked (by omega)
  version := hi.set_version (.inr h6)
  enough := by
    rw [hi.set_payloadLength h, List.length_drop, List.length_set, hi.length]
    omega

theorem set_presumedPayload (hi : Intact bytes payload n) (h : i < 12 ∨ 16 ≤ i)
    (h32 : i < headerSize) : presumedPayload (bytes.set i b) = payload := by
  rw [presumedPayload, hi.set_body h32, hi.set_payloadLength h, List.take_length]

theorem decode_set_mark (hi : Intact bytes payload n) (hlt : i < bytes.length)
    (hb : b ≠ bytes[i]) (h : i < 4) : decode (bytes.set i b) = .error .mark := by
  refine decode_unmarked hi.set_long ?_
  rw [← hi.mark]
  exact part_set_inside hlt hb (Nat.zero_le i) h

theorem decode_set_version (hi : Intact bytes payload n) (hlt : i < bytes.length)
    (hb : b ≠ bytes[i]) (h4 : 4 ≤ i) (h6 : i < 6) :
    decode (bytes.set i b) = .error (.version (Header.field (bytes.set i b) 4 2)) := by
  have hlong := hi.long
  refine (hi.set_marked h4).decode_version ?_
  rw [← hi.version]
  exact field_set_inside hlt hb h4 h6 (by simp only [headerSize] at hlong; omega)

/-- Two bytes of the header are not read. -/
theorem decode_set_unused (hi : Intact bytes payload n) (h6 : 6 ≤ i) (h8 : i < 8) :
    decode (bytes.set i b) = decode bytes := by
  have hversion := hi.set_version (b := b) (.inr h6)
  have hrules := hi.set_ruleCount (b := b) (.inl h8)
  have hpayload := hi.set_payloadLength (b := b) (.inl (show i < 12 by omega))
  have hsum := hi.set_checksum (b := b) (.inl (show i < 16 by omega))
  have hstanding : Header.standing (bytes.set i b) = Header.standing bytes := by
    simp only [Header.standing, hversion, hi.version, hrules, hi.ruleCount, hpayload,
      hi.payloadLength, hsum, hi.checksum]
  have hm := hi.set_marked (b := b) (show 4 ≤ i by omega)
  refine decode_congr ?_ ?_
  · rw [Header.read_standing hm.length hm.mark, hstanding, Header.read_standing hi.long hi.mark]
  · rw [hi.set_body (by simp only [headerSize]; omega), hi.body]

/-- The number of rules is no part of what the checksum protects, but it is held against the
rules. -/
theorem decode_set_ruleCount (hi : Intact bytes payload n) {p : Payload} {left : Bytes}
    (hread : readPayload payload = some (p, left)) (hn : p.rules.length = n)
    (hlt : i < bytes.length) (hb : b ≠ bytes[i]) (h8 : 8 ≤ i) (h12 : i < 12) :
    decode (bytes.set i b) =
      .error (.invalid (.headerRules (Header.field (bytes.set i b) 8 4) n)) := by
  have hlong := hi.long
  have hpayload := hi.set_presumedPayload (b := b) (.inl h12)
    (show i < headerSize by simp only [headerSize]; omega)
  have hsum := hi.set_checksum (b := b) (.inl (show i < 16 by omega))
  have hcount : Header.field (bytes.set i b) 8 4 ≠ p.rules.length := by
    rw [hn, ← hi.ruleCount]
    exact field_set_inside hlt hb h8 h12 (by simp only [headerSize] at hlong; omega)
  have hmiscounted := (hi.set_complete (show 6 ≤ i by omega) (.inl h12)).decode_miscounted
    (by rw [hpayload, hsum]) (by rw [hpayload, hread]) hcount
  rw [hmiscounted, hn]

/-- With a length of its own the payload is too short, or the rest of it is something else. -/
theorem decode_set_payloadLength (hi : Intact bytes payload n) (h12 : 12 ≤ i) (h16 : i < 16) :
    let needed := Header.field (bytes.set i b) 12 4
    (payload.length < needed →
      decode (bytes.set i b) = .error (.length needed payload.length)) ∧
    (needed ≤ payload.length →
      Snapshot.checksum (payload.take needed) ≠ Snapshot.checksum payload →
      decode (bytes.set i b) = .error .checksum) := by
  have hm := hi.set_marked (b := b) (show 4 ≤ i by omega)
  have hversion := hi.set_version (b := b) (.inr (show 6 ≤ i by omega))
  have hbody := hi.set_body (b := b) (show i < headerSize by simp only [headerSize]; omega)
  have hsum := hi.set_checksum (b := b) (.inl h16)
  constructor
  · intro hlen
    have hincomplete := hm.decode_incomplete hversion (by rwa [hbody])
    rwa [hbody] at hincomplete
  · intro hlen hne
    have hc : Complete (bytes.set i b) := ⟨hm, hversion, by rwa [hbody]⟩
    apply hc.decode_corrupt
    rw [presumedPayload, hbody, hsum]
    exact hne

theorem decode_set_checksum (hi : Intact bytes payload n) (hlt : i < bytes.length)
    (hb : b ≠ bytes[i]) (h16 : 16 ≤ i) (h32 : i < headerSize) :
    decode (bytes.set i b) = .error .checksum := by
  apply (hi.set_complete (show 6 ≤ i by omega) (.inr h16)).decode_corrupt
  rw [hi.set_presumedPayload (.inr h16) h32, ← hi.checksum]
  exact (part_set_inside hlt hb h16 h32).symm

theorem decode_set_payload (hi : Intact bytes payload n) (h32 : headerSize ≤ i)
    (hsum : Snapshot.checksum (payload.set (i - headerSize) b) ≠ Snapshot.checksum payload) :
    decode (bytes.set i b) = .error .checksum := by
  have h : 32 ≤ i := h32
  have hneeded := hi.set_payloadLength (b := b) (.inr (show 16 ≤ i by omega))
  have hlen : (payload.set (i - headerSize) b).length = payload.length := List.length_set
  have hpayload : presumedPayload (bytes.set i b) = payload.set (i - headerSize) b := by
    rw [presumedPayload, hneeded, List.drop_set, if_neg (Nat.not_lt.mpr h32), hi.body,
      List.take_of_length_le (Nat.le_of_eq hlen)]
  apply (hi.set_complete (show 6 ≤ i by omega) (.inr (show 16 ≤ i by omega))).decode_corrupt
  rw [hpayload, hi.set_checksum (.inr h)]
  exact hsum

end

end Intact

/-- What a snapshot is refused for if it is cut short, and if a byte of it has changed. The mark,
the version, the number of rules and the length of the payload are each held against what they
should be, two bytes are not read, and the payload and its checksum are held against one another.
A changed or shortened payload can only be taken if its checksum is the same. -/
theorem decode_damaged (g : Grammar) (source : Option String) (hsize : g.size < 2 ^ 32)
    (hlen : (payloadOf g source).write.length < 2 ^ 32) :
    let payload := (payloadOf g source).write
    let bytes := encode g source
    (∀ k < bytes.length, decode (bytes.take k) =
      .error (if k < headerSize then .length headerSize k
        else .length payload.length (k - headerSize))) ∧
    ∀ (i : Nat) (hi : i < bytes.length) (b : UInt8), b ≠ bytes[i] →
      let damaged := bytes.set i b
      (i < 4 → decode damaged = .error .mark) ∧
      (4 ≤ i → i < 6 → decode damaged = .error (.version (Header.field damaged 4 2))) ∧
      (6 ≤ i → i < 8 → decode damaged = decode bytes) ∧
      (8 ≤ i → i < 12 → decode damaged =
        .error (.invalid (.headerRules (Header.field damaged 8 4) g.size))) ∧
      (12 ≤ i → i < 16 →
        let needed := Header.field damaged 12 4
        (payload.length < needed →
          decode damaged = .error (.length needed payload.length)) ∧
        (needed ≤ payload.length → checksum (payload.take needed) ≠ checksum payload →
          decode damaged = .error .checksum)) ∧
      (16 ≤ i → i < headerSize → decode damaged = .error .checksum) ∧
      (headerSize ≤ i → checksum (payload.set (i - headerSize) b) ≠ checksum payload →
        decode damaged = .error .checksum) := by
  intro payload bytes
  have hintact : Intact bytes payload g.size := encode_intact hsize hlen
  have hread := readPayload_append (p := payloadOf g source) rfl rfl (by omega) []
  rw [List.append_nil] at hread
  refine ⟨fun k hk => hintact.decode_take hk, fun i hi b hb => ?_⟩
  exact ⟨hintact.decode_set_mark hi hb, hintact.decode_set_version hi hb,
    hintact.decode_set_unused, hintact.decode_set_ruleCount hread rfl hi hb,
    hintact.decode_set_payloadLength, hintact.decode_set_checksum hi hb,
    hintact.decode_set_payload⟩

/-- A snapshot cut short in its header and in its payload, and with a changed byte in each of its
parts. -/
theorem decode_damaged_sample :
    let bytes := encode sample none
    sample.size < 2 ^ 32 ∧ (payloadOf sample none).write.length < 2 ^ 32 ∧
    decode (bytes.take 31) = .error (.length 32 31) ∧
    decode (bytes.take 40) = .error (.length 34 8) ∧
    decode (bytes.set 0 0) = .error .mark ∧
    decode (bytes.set 4 2) = .error (.version 2) ∧
    decode (bytes.set 6 9) = decode bytes ∧
    decode (bytes.set 8 2) = .error (.invalid (.headerRules 2 1)) ∧
    decode (bytes.set 12 35) = .error (.length 35 34) ∧
    decode (bytes.set 12 33) = .error .checksum ∧
    decode (bytes.set 16 0) = .error .checksum ∧
    decode (bytes.set 40 0) = .error .checksum := by
  intro bytes
  have hsize : sample.size < 2 ^ 32 := by decide
  have hpayload : (payloadOf sample none).write.length = 34 := by decide +kernel
  have hlen : (payloadOf sample none).write.length < 2 ^ 32 := by omega
  have hlength : (encode sample none).length = 66 := by decide +kernel
  have hversion : Header.field (bytes.set 4 2) 4 2 = 2 := by decide +kernel
  have hlisted : Header.field (bytes.set 8 2) 8 4 = 2 := by decide +kernel
  have hlonger : Header.field (bytes.set 12 35) 12 4 = 35 := by decide +kernel
  have hshorter : Header.field (bytes.set 12 33) 12 4 = 33 := by decide +kernel
  obtain ⟨hshort, hchanged⟩ := decode_damaged sample none hsize hlen
  rw [hpayload] at hshort
  obtain ⟨h0, -⟩ := hchanged 0 (by decide +kernel) 0 (by decide +kernel)
  obtain ⟨-, h4, -⟩ := hchanged 4 (by decide +kernel) 2 (by decide +kernel)
  obtain ⟨-, -, h6, -⟩ := hchanged 6 (by decide +kernel) 9 (by decide +kernel)
  obtain ⟨-, -, -, h8, -⟩ := hchanged 8 (by decide +kernel) 2 (by decide +kernel)
  obtain ⟨-, -, -, -, h12, -⟩ := hchanged 12 (by decide +kernel) 35 (by decide +kernel)
  obtain ⟨-, -, -, -, h12', -⟩ := hchanged 12 (by decide +kernel) 33 (by decide +kernel)
  obtain ⟨-, -, -, -, -, h16, -⟩ := hchanged 16 (by decide +kernel) 0 (by decide +kernel)
  obtain ⟨-, -, -, -, -, -, h40⟩ := hchanged 40 (by decide +kernel) 0 (by decide +kernel)
  specialize h4 (by decide) (by decide)
  specialize h8 (by decide) (by decide)
  obtain ⟨h12, -⟩ := h12 (by decide) (by decide)
  obtain ⟨-, h12'⟩ := h12' (by decide) (by decide)
  rw [hversion] at h4
  rw [hlisted] at h8
  rw [hlonger, hpayload] at h12
  rw [hshorter, hpayload] at h12'
  exact ⟨hsize, hlen, hshort 31 (by omega), hshort 40 (by omega), h0 (by decide), h4,
    h6 (by decide) (by decide), h8, h12 (by decide), h12' (by decide) (by decide +kernel),
    h16 (by decide) (by decide), h40 (by decide) (by decide +kernel)⟩

end GameGrammar.Snapshot

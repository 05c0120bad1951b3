import GameGrammar.Proofs.Listing.Normal
import GameGrammar.Proofs.Snapshot.Codec
import GameGrammar.Snapshot.Basic

/-! # Snapshots give their grammar back

The payload is read back part by part, and the header agrees with the payload behind it. -/

namespace GameGrammar.Snapshot

/-! ## The payload -/

theorem writeArgument_ne_nil (a : Argument) : writeArgument a ≠ [] := by
  simp [writeArgument, writeString_ne_nil]

theorem writeClause_ne_nil (c : Clause) : writeClause c ≠ [] := by
  cases c <;> simp [writeClause, writeNat_ne_nil]

theorem writeRule_ne_nil (r : Rule) : writeRule r ≠ [] := by
  simp [writeRule, writeString_ne_nil]

theorem readArgument_append : Undoes readArgument writeArgument := by
  intro a rest hlen
  simp only [writeArgument, List.length_append] at hlen
  have htoken : (writeString a.token).length < 256 ^ 8 := by omega
  have hlabel : (writeOption writeString a.label).length < 256 ^ 8 := by omega
  have hgroup : a.group.toNat < 256 ^ 4 := a.group.toNat_lt
  simp only [readArgument, writeArgument, List.append_assoc, Option.bind_eq_bind,
    Option.bind_some, readString_append _ _ htoken,
    readOption_append readString_append _ _ hlabel, readBool_append, List.cons_append,
    List.nil_append, readByte, readNat_writeNat (.inl rfl) hgroup]
  simp

theorem readClause_append : Undoes readClause writeClause := by
  intro c rest hlen
  have hvariant (n : Nat) (hn : n < 256 ^ 4) (s : Bytes) :
      readNat 4 (writeNat n ++ s) = some (n, s) := readNat_writeNat (.inl rfl) hn s
  cases c with
  | terminal text =>
      simp only [writeClause, List.length_append] at hlen
      have htext : (writeString text).length < 256 ^ 8 := by omega
      simp only [readClause, writeClause, List.append_assoc, hvariant 0 (by decide),
        Option.bind_eq_bind, Option.bind_some, readString_append _ _ htext]
      rfl
  | reference target =>
      simp only [writeClause, List.length_append] at hlen
      have htarget : (writeString target).length < 256 ^ 8 := by omega
      simp only [readClause, writeClause, List.append_assoc, hvariant 1 (by decide),
        Option.bind_eq_bind, Option.bind_some, readString_append _ _ htarget]
      rfl
  | form head args =>
      simp only [writeClause, List.length_append] at hlen
      have hhead : (writeString head).length < 256 ^ 8 := by omega
      have hargs : (writeList writeArgument args).length < 256 ^ 8 := by omega
      simp only [readClause, writeClause, List.append_assoc, hvariant 2 (by decide),
        Option.bind_eq_bind, Option.bind_some, readString_append _ _ hhead,
        readList_append writeArgument_ne_nil readArgument_append _ _ hargs]
      rfl

theorem readRule_append : Undoes readRule writeRule := by
  intro r rest hlen
  simp only [writeRule, List.length_append] at hlen
  have hname : (writeString r.name).length < 256 ^ 8 := by omega
  have hclauses : (writeList writeClause r.clauses).length < 256 ^ 8 := by omega
  simp only [readRule, writeRule, List.append_assoc, Option.bind_eq_bind, Option.bind_some,
    readString_append _ _ hname,
    readList_append writeClause_ne_nil readClause_append _ _ hclauses]
  rfl

theorem readDigest_append : Undoes readDigest writeDigest := by
  intro d rest _
  have hb : readBytes 32 (d.toList ++ rest) = some (d.toList, rest) := by
    have := readBytes_append d.toList rest
    rwa [Vector.length_toList] at this
  have ht : d.toList.toArray = d.toArray := Array.toArray_toList
  simp only [readDigest, writeDigest, hb, Option.bind_eq_bind, Option.bind_some, ht,
    d.size_toArray, dite_true]
  rfl

/-- No alternative is coded by nothing, so there are at most as many as bytes. -/
theorem totalClauses_le (rules : List Rule) :
    totalClauses rules ≤ (rules.flatMap writeRule).length := by
  induction rules with
  | nil => exact Nat.le_refl _
  | cons r rules ih =>
      have hr := items_le_flatMap writeClause_ne_nil r.clauses
      simp only [totalClauses, List.flatMap_cons, List.length_append, writeRule,
        writeList] at ih ⊢
      omega

/-- A payload whose counts are those of its rules is read back. -/
theorem readPayload_append {p : Payload} (hr : p.ruleCount = p.rules.length)
    (hc : p.clauseCount = totalClauses p.rules) (hlen : p.write.length < 256 ^ 8)
    (rest : Bytes) : readPayload (p.write ++ rest) = some (p, rest) := by
  simp only [Payload.write, List.length_append] at hlen
  have hsource : (writeOption writeDigest p.source).length < 256 ^ 8 := by omega
  have hrules : (writeList writeRule p.rules).length < 256 ^ 8 := by omega
  have hruleCount : p.ruleCount < 256 ^ 8 := by
    have := items_le_flatMap writeRule_ne_nil p.rules
    simp only [writeList, List.length_append] at hrules
    omega
  have hclauseCount : p.clauseCount < 256 ^ 8 := by
    have := totalClauses_le p.rules
    simp only [writeList, List.length_append] at hrules
    omega
  simp only [readPayload, Payload.write, List.append_assoc, Option.bind_eq_bind,
    Option.bind_some, readNat_writeNat (.inr rfl) hruleCount,
    readNat_writeNat (.inr rfl) hclauseCount,
    readOption_append readDigest_append _ _ hsource,
    readList_append writeRule_ne_nil readRule_append _ _ hrules]
  rfl

/-! ## The header -/

theorem checksum_length (payload : Bytes) : (checksum payload).length = 16 := by
  simp [checksum]

namespace Header

/-- Numbers that fit their fields, and a checksum of the width kept for it. -/
structure Fits (h : Header) : Prop where
  version : h.version < 256 ^ 2
  ruleCount : h.ruleCount < 256 ^ 4
  payloadLength : h.payloadLength < 256 ^ 4
  checksum : h.checksum.length = 16

theorem ofPayload_fits (payload : Bytes) (ruleCount : Nat) :
    (ofPayload payload ruleCount).Fits where
  version := by simp only [ofPayload, formatVersion]; omega
  ruleCount := by simp only [ofPayload, saturated]; omega
  payloadLength := by simp only [ofPayload, saturated]; omega
  checksum := checksum_length payload

theorem write_length {h : Header} (hf : h.Fits) : h.write.length = headerSize := by
  simp [write, hf.checksum, mark, headerSize]

theorem field_eq {n start width : Nat} {bytes : Bytes} (front rest : Bytes)
    (hb : bytes = front ++ (littleEndian width n ++ rest)) (hs : front.length = start)
    (hn : n < 256 ^ width) : field bytes start width = n := by
  have ht : (littleEndian width n ++ rest).take width = littleEndian width n := by
    simp
  rw [field, hb, ← hs, List.drop_left, ht, ofLittleEndian_littleEndian,
    Nat.mod_eq_of_lt hn]

/-- The header is read back from its fields. -/
theorem read_append {h : Header} (hf : h.Fits) (rest : Bytes) :
    read (h.write ++ rest) = .ok h := by
  have hlen : ¬(h.write ++ rest).length < headerSize := by
    rw [List.length_append, write_length hf]
    omega
  have hmark : (h.write ++ rest).take 4 = mark := by
    simp [write, mark]
  have hversion : field (h.write ++ rest) 4 2 = h.version :=
    field_eq mark ([0, 0] ++ littleEndian 4 h.ruleCount ++ littleEndian 4 h.payloadLength ++
      h.checksum ++ rest) (by simp [write]) rfl hf.version
  have hrules : field (h.write ++ rest) 8 4 = h.ruleCount :=
    field_eq (mark ++ littleEndian 2 h.version ++ [0, 0])
      (littleEndian 4 h.payloadLength ++ h.checksum ++ rest)
      (by simp [write]) (by simp [mark]) hf.ruleCount
  have hpayload : field (h.write ++ rest) 12 4 = h.payloadLength :=
    field_eq (mark ++ littleEndian 2 h.version ++ [0, 0] ++ littleEndian 4 h.ruleCount)
      (h.checksum ++ rest)
      (by simp [write]) (by simp [mark]) hf.payloadLength
  have hchecksum : ((h.write ++ rest).drop 16).take 16 = h.checksum := by
    have hd : h.write ++ rest = (mark ++ littleEndian 2 h.version ++ [0, 0] ++
        littleEndian 4 h.ruleCount ++ littleEndian 4 h.payloadLength) ++
        (h.checksum ++ rest) := by
      simp [write]
    rw [hd, List.drop_left' (by simp [mark]), List.take_left' hf.checksum]
  simp only [read, if_neg hlen, hmark, hversion, hrules, hpayload, hchecksum]
  rfl

/-- A header of the payload's own finds the payload among more bytes. -/
theorem payload_append {payload : Bytes} (hlen : payload.length < 256 ^ 4) (ruleCount : Nat)
    (rest : Bytes) :
    let h := ofPayload payload ruleCount
    h.payload (h.write ++ (payload ++ rest)) = .ok payload := by
  intro h
  have hbody : (h.write ++ (payload ++ rest)).drop headerSize = payload ++ rest :=
    List.drop_left' (write_length (ofPayload_fits payload ruleCount))
  have hlength : h.payloadLength = payload.length := by
    simp only [h, ofPayload, saturated]
    omega
  have hfront : (payload ++ rest).take h.payloadLength = payload :=
    List.take_left' hlength.symm
  have henough : ¬(payload ++ rest).length < h.payloadLength := by
    rw [List.length_append, hlength]
    omega
  have hversion : h.version = formatVersion := rfl
  have hchecksum : h.checksum = Snapshot.checksum payload := rfl
  simp only [Header.payload, hbody, hfront, if_neg henough, hversion, hchecksum]
  simp

end Header

/-! ## The snapshot -/

/-- What a snapshot of the grammar holds behind its header. -/
def payloadOf (g : Grammar) (source : Option String) : Payload where
  ruleCount := g.size
  clauseCount := g.clauseCount
  source := source.map fun text => Digest.blake3 text.toUTF8.data
  rules := g.rules

theorem encode_eq (g : Grammar) (source : Option String) :
    encode g source =
      (Header.ofPayload (payloadOf g source).write g.size).write ++
        (payloadOf g source).write :=
  rfl

/-- Behind a header of its own a payload is found whole. It is taken if it can be read and holds as
many rules as the header says, whatever is left of it and whatever comes after it. -/
theorem contents_append {payload left : Bytes} {p : Payload} {ruleCount : Nat}
    (hread : readPayload payload = some (p, left)) (hcount : saturated ruleCount = p.rules.length)
    (hlen : payload.length < 256 ^ 4) (rest : Bytes) :
    contents ((Header.ofPayload payload ruleCount).write ++ (payload ++ rest)) = .ok p := by
  have hfits := Header.ofPayload_fits payload ruleCount
  have hrules : (Header.ofPayload payload ruleCount).ruleCount = p.rules.length := hcount
  simp only [contents, Header.read_append hfits, bind, Except.bind, Header.payload_append hlen,
    hread]
  rw [if_pos hrules]

theorem contents_encode (g : Grammar) (source : Option String) (hsize : g.size < 256 ^ 4)
    (hlen : (payloadOf g source).write.length < 256 ^ 4) (rest : Bytes) :
    contents (encode g source ++ rest) = .ok (payloadOf g source) := by
  have hread := readPayload_append (p := payloadOf g source) rfl rfl (by omega) []
  rw [List.append_nil] at hread
  have hcount : saturated g.size = (payloadOf g source).rules.length := by
    simp only [saturated, payloadOf, Grammar.size] at hsize ⊢
    omega
  rw [encode_eq, List.append_assoc]
  exact contents_append hread hcount hlen rest

theorem clauseFlaw?_eq_none_iff {rule : String} {c : Clause} :
    clauseFlaw? rule c = none ↔ c.Named := by
  cases c with
  | terminal text => simp [clauseFlaw?, Clause.Named]
  | reference target => simp [clauseFlaw?, Clause.Named]
  | form head args => simp [clauseFlaw?, Clause.Named]

/-- A payload has no flaw if its counts are right and all of its rules go by names. -/
theorem flaw?_eq_none_iff {p : Payload} :
    flaw? p = none ↔ p.ruleCount = p.rules.length ∧ p.clauseCount = totalClauses p.rules ∧
      ∀ r ∈ p.rules, r.Named := by
  have hrules : p.rules.findSome? (fun r => r.clauses.findSome? (clauseFlaw? r.name)) = none ↔
      ∀ r ∈ p.rules, r.Named := by
    simp only [List.findSome?_eq_none_iff, clauseFlaw?_eq_none_iff, Rule.Named]
  constructor
  · intro h
    unfold flaw? at h
    split at h
    · cases h
    · next hcount =>
        split at h
        · cases h
        · next hclauses =>
            exact ⟨Decidable.not_not.mp hcount, Decidable.not_not.mp hclauses, hrules.mp h⟩
  · rintro ⟨hcount, hclauses, hnamed⟩
    rw [flaw?, if_neg (not_not_intro hcount), if_neg (not_not_intro hclauses)]
    exact hrules.mpr hnamed

/-- Nothing that goes by a name is flawed. -/
theorem flaw?_payloadOf {g : Grammar} (hn : g.Named) (source : Option String) :
    flaw? (payloadOf g source) = none :=
  flaw?_eq_none_iff.mpr ⟨rfl, rfl, hn⟩

/-- A payload without a flaw gives the grammar of its rules. -/
theorem restore_eq_ok_iff {p : Payload} {g : Grammar} :
    restore p = .ok g ↔ p.ruleCount = p.rules.length ∧ p.clauseCount = totalClauses p.rules ∧
      (∀ r ∈ p.rules, r.Named) ∧ g.rules = p.rules := by
  constructor
  · intro h
    unfold restore at h
    split at h
    · cases h
    · next hflaw =>
        obtain ⟨hcount, hclauses, hnamed⟩ := flaw?_eq_none_iff.mp hflaw
        exact ⟨hcount, hclauses, hnamed,
          Grammar.ofRules_eq_ok_iff.mp (Listing.mapError_eq_ok.mp h)⟩
  · rintro ⟨hcount, hclauses, hnamed, hrules⟩
    simp only [restore, flaw?_eq_none_iff.mpr ⟨hcount, hclauses, hnamed⟩]
    exact Listing.mapError_eq_ok.mpr (Grammar.ofRules_eq_ok_iff.mpr hrules)

theorem ofRules_rules (g : Grammar) : Grammar.ofRules g.rules = .ok g :=
  Grammar.ofRules_eq_ok_iff.mpr rfl

theorem restore_payloadOf {g : Grammar} (hn : g.Named) (source : Option String) :
    restore (payloadOf g source) = .ok g :=
  restore_eq_ok_iff.mpr ⟨rfl, rfl, hn, rfl⟩

/-- A snapshot gives its grammar back, and the digest of the text that it comes from, whatever
bytes follow it. Grammars that are read from a listing have the names that this takes. -/
theorem decode_encode :
    (∀ text g, Listing.load text = .ok g → g.Named) ∧
    ∀ (g : Grammar) (source : Option String) (rest : Bytes), g.Named → g.size < 2 ^ 32 →
      (payloadOf g source).write.length < 2 ^ 32 →
      decode (encode g source ++ rest) = .ok g ∧
      sourceDigest (encode g source ++ rest) =
        .ok (source.map fun text => Digest.blake3 text.toUTF8.data) := by
  refine ⟨fun text g h => Listing.load_named h, ?_⟩
  intro g source rest hn hsize hlen
  have hcontents := contents_encode g source (by omega) (by omega) rest
  constructor
  · simp only [decode, hcontents, bind, Except.bind, restore_payloadOf hn]
    rfl
  · simp only [sourceDigest, hcontents, bind, Except.bind]
    rfl

/-- A rule with an alternative of each kind. -/
def sample : Grammar where
  rules := [⟨"<a>", [.terminal "b", .reference "<a>",
    .form "c" [{ token := "string", label := some "d", nesting := 1 }]]⟩]
  sound := by decide

theorem decode_encode_sample :
    sample.Named ∧ decode (encode sample none ++ [1, 2, 3]) = .ok sample ∧
      sourceDigest (encode sample none ++ [1, 2, 3]) = .ok none := by
  have hload : Listing.load "<a> ::= b | <a> | (c d:\x7bstring\x7d)" = .ok sample := by
    with_unfolding_all rfl
  have hn : sample.Named := decode_encode.1 _ sample hload
  exact ⟨hn, decode_encode.2 sample none [1, 2, 3] hn (by decide) (by decide +kernel)⟩

end GameGrammar.Snapshot

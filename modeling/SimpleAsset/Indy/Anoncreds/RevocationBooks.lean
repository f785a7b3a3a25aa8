import SimpleAsset.Indy.Anoncreds.Issuer
import SimpleAsset.Library.Runs

/-! The stored information of a registry against the history of its credentials. -/
namespace SimpleAsset.Indy.Issuer
open SimpleAsset.Library

section History

def Note.issuedId? : Note → Option ℕ
  | .issued _ (.ok id) => some id
  | _ => none

def Note.revokedId? : Note → Option ℕ
  | .revoked credRevocId (.ok _) => (parseCredRevId credRevocId).toOption
  | _ => none

/-- The indices that were handed out, in this order. -/
def handedOut (log : List Note) : List ℕ := log.filterMap Note.issuedId?

/-- The indices that were revoked. -/
def revokedIds (log : List Note) : List ℕ := log.filterMap Note.revokedId?

/-- Issued, or issued by default, and not revoked. -/
def ValidIndex (maxCredNum : ℕ) (issuanceType : IssuanceType) (log : List Note) (id : ℕ) : Prop :=
  (1 ≤ id ∧ id ≤ maxCredNum) ∧ id ∉ revokedIds log ∧
    (issuanceType = .issuanceOnDemand → id ∈ handedOut log)

/-- What may be seen of a call after the calls of `log`. -/
def SoundNote (maxCredNum : ℕ) (issuanceType : IssuanceType) (log : List Note) : Note → Prop
  | .sum a b => a + b < 2 ^ 32
  | .issued call result => call.credDef = .ok () →
      (result = .error registryFull ↔ (handedOut log).length = maxCredNum)
  | .revoked credRevocId (.ok _) => ∃ id, parseCredRevId credRevocId = .ok id ∧
      ValidIndex maxCredNum issuanceType log id
  | .revoked _ (.error _) => True

/-- The ids that the stored set has. -/
def Marked (issuanceType : IssuanceType) (log : List Note) (id : ℕ) : Prop :=
  match issuanceType with
  | .issuanceOnDemand => id ∈ handedOut log ∧ id ∉ revokedIds log
  | .issuanceByDefault => id ∈ revokedIds log

variable {U : Accumulators}

/-- The registry is what its history makes it. -/
structure BooksKept (log : List Note) (s : Registry U) : Prop where
  range : ∀ id ∈ handedOut log, 1 ≤ id ∧ id ≤ s.maxCredNum
  once : (handedOut log).Nodup
  currId : s.info.currId = (handedOut log).length
  usedIds : ∀ id, id ∈ s.info.usedIds ↔ Marked s.issuanceType log id
  notes : ∀ pre note, pre ++ [note] <+: log → SoundNote s.maxCredNum s.issuanceType pre note

/-- Both writes succeed. -/
def Writes.Done (writes : Writes) : Prop := writes.revReg = .ok () ∧ writes.info = .ok ()

/-- The registry is written and its information is not. -/
def Writes.Half (writes : Writes) : Prop := writes.revReg = .ok () ∧ writes.info ≠ .ok ()

/-- The call forms no sum beyond `u32`, and does not revoke an index outside of
`1..max_cred_num`. -/
def Bounded (s : Registry U) : Call → Prop
  | .newCredential call => call.credDef = .ok () → s.info.currId + 1 < 2 ^ 32
  | .revokeCredential credRevocId tailsAccessor writes => ∀ id,
      parseCredRevId credRevocId = .ok id → tailsAccessor = .ok () → s.maxCredNum + 1 < 2 ^ 32 ∧
        (s.issuanceType = .issuanceByDefault → writes.Done → id ≠ 0 ∧ id ≠ s.maxCredNum + 1)

/-- The invariant: the indices were handed out one after the other. -/
structure BooksInvariant (log : List Note) (s : Registry U) : Prop where
  issued : handedOut log = (List.range s.info.currId).map (· + 1)
  bound : s.info.currId ≤ s.maxCredNum
  usedIds : ∀ id, id ∈ s.info.usedIds ↔ Marked s.issuanceType log id
  notes : ∀ pre note, pre ++ [note] <+: log → SoundNote s.maxCredNum s.issuanceType pre note

theorem BooksInvariant.mem_handedOut {log : List Note} {s : Registry U}
    (h : BooksInvariant log s) {id : ℕ} :
    id ∈ handedOut log ↔ 1 ≤ id ∧ id ≤ s.info.currId := by
  rw [h.issued, List.mem_map]
  constructor
  · rintro ⟨n, hn, rfl⟩
    have hlt := List.mem_range.mp hn
    omega
  · intro ⟨hpos, hle⟩
    exact ⟨id - 1, List.mem_range.mpr (by omega), by omega⟩

theorem BooksInvariant.length_handedOut {log : List Note} {s : Registry U}
    (h : BooksInvariant log s) :
    (handedOut log).length = s.info.currId := by
  rw [h.issued, List.length_map, List.length_range]

theorem BooksInvariant.booksKept {log : List Note} {s : Registry U} (h : BooksInvariant log s) :
    BooksKept log s where
  range id hid := by
    have hle := h.mem_handedOut.mp hid
    have hbound := h.bound
    omega
  once := by
    rw [h.issued]
    exact List.nodup_range.map (fun _ _ heq => Nat.succ.inj heq)
  currId := h.length_handedOut.symm
  usedIds := h.usedIds
  notes := h.notes

/-- Revoked indices were valid when they were revoked. -/
theorem BooksInvariant.revoked_valid {log : List Note} {s : Registry U}
    (h : BooksInvariant log s) {id : ℕ} (hid : id ∈ revokedIds log) : ∃ pre, pre <+: log ∧
      ValidIndex s.maxCredNum s.issuanceType pre id := by
  obtain ⟨note, hmem, hnote⟩ := List.mem_filterMap.mp hid
  obtain ⟨pre, post, rfl⟩ := List.append_of_mem hmem
  have hsound := h.notes pre note ⟨post, by simp⟩
  cases note with
  | sum a b => cases hnote
  | issued call result => cases result <;> cases hnote
  | revoked credRevocId result =>
    cases result with
    | error e => cases hnote
    | ok u =>
      obtain ⟨id', hparse, hvalid⟩ := hsound
      rw [Note.revokedId?, hparse] at hnote
      obtain rfl : id' = id := Option.some.inj hnote
      exact ⟨pre, List.prefix_append _ _, hvalid⟩

theorem BooksInvariant.revoked_issued {log : List Note} {s : Registry U}
    (h : BooksInvariant log s) {id : ℕ}
    (htype : s.issuanceType = .issuanceOnDemand) (hid : id ∈ revokedIds log) :
    id ∈ handedOut log := by
  obtain ⟨pre, ⟨post, rfl⟩, -, -, hissued⟩ := h.revoked_valid hid
  rw [handedOut, List.filterMap_append]
  exact List.mem_append_left _ (hissued htype)

end History

section Specs
variable {U : Accumulators} {build : Build} {s : Registry U} {call : CredentialCall}
    {credRevocId : String}
  {tailsAccessor : Except Refusal Unit} {writes : Writes} {id : ℕ}

theorem addU32_eq {a b : ℕ} (h : a + b < 2 ^ 32) : addU32 build a b = .ok (a + b) := if_pos h

/-- What a new credential needs before its writes. -/
structure CredentialCall.Prepared (call : CredentialCall) : Prop where
  credDef : call.credDef = .ok ()
  reader : call.blobStorageReaderHandle ≠ none
  tailsAccessor : call.tailsAccessor = .ok ()
  signature : call.signature = .ok ()
  witness : call.witness = .ok ()

theorem writeRegistry_cases (s : Registry U) (revReg : U.Registry) (info : RevocationRegistryInfo)
    (writes : Writes) :
    (∃ (e : Refusal) (left : U.Registry),
      writeRegistry s revReg info writes = (.error (.err e.1), { s with revReg := left }) ∧
        ¬ writes.Done ∧ (left = s.revReg ∧ ¬ writes.Half ∨ left = revReg ∧ writes.Half)) ∨
      writeRegistry s revReg info writes = (.ok (), { s with revReg := revReg, info := info }) ∧
        writes.Done := by
  obtain ⟨first, second⟩ := writes
  cases first with
  | error e =>
    refine Or.inl ⟨e, s.revReg, rfl, ?_, Or.inl ⟨rfl, ?_⟩⟩
    · simp [Writes.Done]
    · simp [Writes.Half]
  | ok u =>
    cases second with
    | error e =>
      refine Or.inl ⟨e, revReg, rfl, ?_, Or.inr ⟨rfl, ?_⟩⟩
      · simp [Writes.Done]
      · simp [Writes.Half]
    | ok u => exact Or.inr ⟨rfl, rfl, rfl⟩

theorem Writes.Done.not_half {writes : Writes} (h : writes.Done) : ¬ writes.Half :=
  fun hhalf => hhalf.2 h.2

theorem Refusal.ne_registryFull (e : Refusal) : e.1 ≠ registryFull := by
  intro heq
  exact e.2 (congrArg IndyError.kind heq)

/-- The set of used ids with the index that is handed out. -/
def withIssued (s : Registry U) : Finset ℕ :=
  match s.issuanceType with
  | .issuanceOnDemand => insert (s.info.currId + 1) s.info.usedIds
  | .issuanceByDefault => s.info.usedIds

theorem newCredential_refused {e : Refusal} (h : call.credDef = .error e) :
    newCredential build s call = (.error (.err e.1), s) := by
  rw [newCredential, issueCredential, h, ofRefusal, except_error_bind]

theorem newCredential_full (h : call.credDef = .ok ()) (hsum : s.info.currId + 1 < 2 ^ 32)
    (hfull : s.maxCredNum < s.info.currId + 1) :
    newCredential build s call = (.error (.err registryFull), s) := by
  rw [newCredential, issueCredential, h, ofRefusal, except_ok_bind, addU32_eq hsum, except_ok_bind,
    if_pos hfull]

/-- The registry that a new credential writes. -/
def signed (s : Registry U) : U.Registry :=
  (U.sign s.revReg (s.info.currId + 1) s.maxCredNum (s.issuanceType = .issuanceByDefault)).1

variable (build) in
theorem issueCredential_room (h : call.credDef = .ok ()) (hsum : s.info.currId + 1 < 2 ^ 32)
    (hroom : ¬ s.maxCredNum < s.info.currId + 1) :
    (∃ e, e ≠ registryFull ∧ issueCredential build s call = .error (.err e) ∧ ¬ call.Prepared) ∨
      call.Prepared ∧ ∃ delta, issueCredential build s call =
        .ok (signed s, ⟨s.info.currId + 1, withIssued s⟩, delta) := by
  rw [issueCredential, h, ofRefusal, except_ok_bind, addU32_eq hsum, except_ok_bind, if_neg hroom]
  cases hreader : call.blobStorageReaderHandle with
  | none => exact Or.inl ⟨_, by decide, rfl, fun hcall => hcall.reader hreader⟩
  | some reader =>
    cases htails : call.tailsAccessor with
    | error e =>
      refine Or.inl ⟨_, e.ne_registryFull, rfl, fun hcall => ?_⟩
      cases htails.symm.trans hcall.tailsAccessor
    | ok u =>
      cases hsignature : call.signature with
      | error e =>
        refine Or.inl ⟨_, e.ne_registryFull, rfl, fun hcall => ?_⟩
        cases hsignature.symm.trans hcall.signature
      | ok u =>
        cases hwitness : call.witness with
        | error e =>
          refine Or.inl ⟨_, e.ne_registryFull, rfl, fun hcall => ?_⟩
          cases hwitness.symm.trans hcall.witness
        | ok u =>
          have hprepared : call.Prepared :=
            ⟨h, by simp [hreader], htails, hsignature, hwitness⟩
          exact Or.inr ⟨hprepared, _, rfl⟩

variable (build) in
/-- A new credential with room in the registry: it fails before its writes, at them, or not. -/
theorem newCredential_room (h : call.credDef = .ok ()) (hsum : s.info.currId + 1 < 2 ^ 32)
    (hroom : ¬ s.maxCredNum < s.info.currId + 1) :
    (∃ e left, e ≠ registryFull ∧
      newCredential build s call = (.error (.err e), { s with revReg := left }) ∧
        (left = s.revReg ∧ ¬ (call.Prepared ∧ call.writes.Half) ∨
          left = signed s ∧ call.Prepared ∧ call.writes.Half)) ∨
      ∃ delta, newCredential build s call = (.ok (s.info.currId + 1, delta),
        { s with revReg := signed s, info := ⟨s.info.currId + 1, withIssued s⟩ }) ∧
        call.writes.Done := by
  delta newCredential
  rcases issueCredential_room build h hsum hroom with
    ⟨e, hne, hissue, hnot⟩ | ⟨hprepared, delta, hissue⟩
  · rw [hissue]
    exact Or.inl ⟨e, s.revReg, hne, rfl, Or.inl ⟨rfl, fun hcall => hnot hcall.1⟩⟩
  · rw [hissue]
    rcases writeRegistry_cases s (signed s) ⟨s.info.currId + 1, withIssued s⟩ call.writes with
      ⟨e, left, hwrite, -, hleft⟩ | ⟨hwrite, hdone⟩
    · dsimp only
      rw [hwrite]
      refine Or.inl ⟨e.1, left, e.ne_registryFull, rfl, ?_⟩
      rcases hleft with ⟨heq, hhalf⟩ | ⟨heq, hhalf⟩
      · exact Or.inl ⟨heq, fun hcall => hhalf hcall.2⟩
      · exact Or.inr ⟨heq, hprepared, hhalf⟩
    · dsimp only
      rw [hwrite]
      exact Or.inr ⟨delta, rfl, hdone⟩

/-- The set of used ids after an index was revoked. -/
def withRevoked (s : Registry U) (id : ℕ) : Finset ℕ :=
  match s.issuanceType with
  | .issuanceOnDemand => s.info.usedIds.erase id
  | .issuanceByDefault => insert id s.info.usedIds

/-- The stored set says that the index can be revoked. -/
def Revocable (s : Registry U) (id : ℕ) : Prop :=
  match s.issuanceType with
  | .issuanceOnDemand => id ∈ s.info.usedIds
  | .issuanceByDefault => id ∉ s.info.usedIds

theorem revokeCredential_unparsed {e : IndyError} (h : parseCredRevId credRevocId = .error e) :
    revokeCredential build s credRevocId tailsAccessor writes = (.error (.err e), s) := by
  delta revokeCredential revokeIndex
  rw [h]
  rfl

theorem revokeCredential_refused {e : Refusal} (h : parseCredRevId credRevocId = .ok id) :
    revokeCredential build s credRevocId (.error e) writes = (.error (.err e.1), s) := by
  delta revokeCredential revokeIndex
  rw [h]
  rfl

theorem revokeCredential_not_found (h : parseCredRevId credRevocId = .ok id)
    (hsum : s.maxCredNum + 1 < 2 ^ 32) (hnot : ¬ (id ≤ s.maxCredNum + 1 ∧ Revocable s id)) :
    revokeCredential build s credRevocId (.ok ()) writes =
      (.error (.err (revocIdNotFound id)), s) := by
  delta revokeCredential revokeIndex
  rw [h, ofIndyResult, except_ok_bind, ofRefusal, except_ok_bind, addU32_eq hsum,
    except_ok_bind]
  by_cases hbound : s.maxCredNum + 1 < id
  · rw [if_pos hbound]
  · have hrevocable : ¬ Revocable s id := fun h => hnot ⟨Nat.le_of_not_lt hbound, h⟩
    unfold Revocable at hrevocable
    rw [if_neg hbound]
    cases htype : s.issuanceType with
    | issuanceByDefault =>
      simp only [htype, not_not] at hrevocable
      simp only [if_pos hrevocable, except_error_bind]
    | issuanceOnDemand =>
      simp only [htype] at hrevocable
      simp only [if_neg hrevocable, except_error_bind]

/-- The registry that a revocation writes. -/
def withoutIndex (s : Registry U) (id : ℕ) : U.Registry := (U.revoke s.revReg s.maxCredNum id).1

variable (build) in
theorem revokeIndex_ok (h : parseCredRevId credRevocId = .ok id) (hsum : s.maxCredNum + 1 < 2 ^ 32)
    (hbound : id ≤ s.maxCredNum + 1) (hrevocable : Revocable s id) : ∃ delta,
    revokeIndex build s credRevocId (.ok ()) =
      .ok (withoutIndex s id, { s.info with usedIds := withRevoked s id }, delta) := by
  refine ⟨(U.revoke s.revReg s.maxCredNum id).2, ?_⟩
  unfold withRevoked withoutIndex
  unfold Revocable at hrevocable
  delta revokeIndex
  rw [h, ofIndyResult, except_ok_bind, ofRefusal, except_ok_bind, addU32_eq hsum,
    except_ok_bind, if_neg (by omega)]
  cases htype : s.issuanceType with
  | issuanceByDefault =>
    simp only [htype] at hrevocable
    simp only [if_neg hrevocable, except_pure, except_ok_bind]
  | issuanceOnDemand =>
    simp only [htype] at hrevocable
    simp only [if_pos hrevocable, except_pure, except_ok_bind]

variable (build) in
/-- The revocation of an index that can be revoked: it fails at its writes, or not. -/
theorem revokeCredential_found (h : parseCredRevId credRevocId = .ok id)
    (hsum : s.maxCredNum + 1 < 2 ^ 32) (hbound : id ≤ s.maxCredNum + 1)
    (hrevocable : Revocable s id) :
    (∃ e left, revokeCredential build s credRevocId (.ok ()) writes =
      (.error (.err e), { s with revReg := left }) ∧ ¬ writes.Done ∧
        (left = s.revReg ∧ ¬ writes.Half ∨ left = withoutIndex s id ∧ writes.Half)) ∨
      ∃ delta, revokeCredential build s credRevocId (.ok ()) writes =
        (.ok delta, { s with
          revReg := withoutIndex s id, info := { s.info with usedIds := withRevoked s id } }) ∧
        writes.Done := by
  obtain ⟨delta, hrevoke⟩ := revokeIndex_ok build h hsum hbound hrevocable
  delta revokeCredential
  rw [hrevoke]
  rcases writeRegistry_cases s (withoutIndex s id) { s.info with usedIds := withRevoked s id }
    writes with ⟨e, left, hwrite, hleft⟩ | ⟨hwrite, hdone⟩
  · dsimp only
    rw [hwrite]
    exact Or.inl ⟨e.1, left, rfl, hleft⟩
  · dsimp only
    rw [hwrite]
    exact Or.inr ⟨delta, rfl, hdone⟩

end Specs

section Steps
variable {U : Accumulators} {build : Build} {s : Registry U} {log : List Note}
    {call : CredentialCall}
  {credRevocId : String} {tailsAccessor : Except Refusal Unit} {writes : Writes} {id : ℕ}

theorem handedOut_append (log log' : List Note) :
    handedOut (log ++ log') = handedOut log ++ handedOut log' :=
  List.filterMap_append

theorem revokedIds_append (log log' : List Note) :
    revokedIds (log ++ log') = revokedIds log ++ revokedIds log' :=
  List.filterMap_append

theorem notes_concat {maxCredNum : ℕ} {issuanceType : IssuanceType} {note : Note}
    (h : ∀ pre note, pre ++ [note] <+: log → SoundNote maxCredNum issuanceType pre note)
    (hsound : SoundNote maxCredNum issuanceType log note) :
    ∀ pre note', pre ++ [note'] <+: log ++ [note] →
      SoundNote maxCredNum issuanceType pre note' := by
  intro pre note' hpre
  rcases List.prefix_concat_iff.mp hpre with heq | hpre'
  · obtain ⟨rfl, hnote⟩ := List.append_inj' heq rfl
    rw [List.singleton_injective hnote]
    exact hsound
  · exact h pre note' hpre'

/-- One note more, about a call that left the registry as it was. -/
theorem BooksInvariant.note (h : BooksInvariant log s) {note : Note}
    (hsound : SoundNote s.maxCredNum s.issuanceType log note) (hissued : note.issuedId? = none)
    (hrevoked : note.revokedId? = none) : BooksInvariant (log ++ [note]) s := by
  have hhanded : handedOut (log ++ [note]) = handedOut log := by
    have hnone : handedOut [note] = [] := List.filterMap_cons_none hissued
    rw [handedOut_append, hnone, List.append_nil]
  have hrevokedIds : revokedIds (log ++ [note]) = revokedIds log := by
    have hnone : revokedIds [note] = [] := List.filterMap_cons_none hrevoked
    rw [revokedIds_append, hnone, List.append_nil]
  refine ⟨hhanded.trans h.issued, h.bound, ?_, notes_concat h.notes hsound⟩
  intro id
  rw [h.usedIds]
  unfold Marked
  rw [hhanded, hrevokedIds]

/-- The accumulator is not part of the books. -/
theorem BooksInvariant.withRevReg (h : BooksInvariant log s) (revReg : U.Registry) :
    BooksInvariant log { s with revReg := revReg } :=
  ⟨h.issued, h.bound, h.usedIds, h.notes⟩

/-- The next index is handed out. -/
theorem BooksInvariant.issue (h : BooksInvariant log s) (hroom : ¬ s.maxCredNum < s.info.currId + 1)
    (revReg : U.Registry) (call : CredentialCall) :
    BooksInvariant (log ++ [.issued call (.ok (s.info.currId + 1))])
      { s with revReg := revReg, info := ⟨s.info.currId + 1, withIssued s⟩ } := by
  have hhanded : handedOut (log ++ [.issued call (.ok (s.info.currId + 1))]) = handedOut log ++
      [s.info.currId + 1] :=
    handedOut_append _ _
  have hrevoked : revokedIds (log ++ [.issued call (.ok (s.info.currId + 1))]) = revokedIds log :=
    (revokedIds_append _ _).trans (List.append_nil _)
  refine ⟨?_, by simpa using hroom, ?_, notes_concat h.notes ?_⟩
  · rw [hhanded, h.issued, List.range_succ, List.map_append]
    rfl
  · intro id
    have hused := h.usedIds id
    cases htype : s.issuanceType with
    | issuanceByDefault =>
      simp only [withIssued, Marked, htype, hrevoked] at hused ⊢
      exact hused
    | issuanceOnDemand =>
      have hfresh : s.info.currId + 1 ∉ revokedIds log := by
        intro hmem
        have hle := h.mem_handedOut.mp (h.revoked_issued htype hmem)
        omega
      simp only [withIssued, Marked, htype, hrevoked, hhanded, Finset.mem_insert, List.mem_append,
        List.mem_singleton] at hused ⊢
      rw [hused]
      constructor
      · rintro (rfl | ⟨hmem, hnot⟩)
        · exact ⟨Or.inr rfl, hfresh⟩
        · exact ⟨Or.inl hmem, hnot⟩
      · rintro ⟨hmem | rfl, hnot⟩
        · exact Or.inr ⟨hmem, hnot⟩
        · exact Or.inl rfl
  · intro _
    have hlength := h.length_handedOut
    constructor
    · intro heq
      cases heq
    · intro heq
      change (handedOut log).length = s.maxCredNum at heq
      omega

/-- A valid index is revoked. -/
theorem BooksInvariant.revoke (h : BooksInvariant log s)
    (hparse : parseCredRevId credRevocId = .ok id)
    (hvalid : ValidIndex s.maxCredNum s.issuanceType log id) (revReg : U.Registry) :
    BooksInvariant (log ++ [.revoked credRevocId (.ok ())])
      { s with revReg := revReg, info := { s.info with usedIds := withRevoked s id } } := by
  have hhanded : handedOut (log ++ [.revoked credRevocId (.ok ())]) = handedOut log :=
    (handedOut_append _ _).trans (List.append_nil _)
  have hrevoked : revokedIds (log ++ [.revoked credRevocId (.ok ())]) = revokedIds log ++ [id] := by
    have hlast : revokedIds [.revoked credRevocId (.ok ())] = [id] := by
      have hsome : (Note.revoked credRevocId (.ok ())).revokedId? = some id := by
        rw [Note.revokedId?, hparse]
        rfl
      exact List.filterMap_cons_some hsome
    rw [revokedIds_append, hlast]
  refine ⟨hhanded.trans h.issued, h.bound, ?_, notes_concat h.notes ⟨id, hparse, hvalid⟩⟩
  intro id'
  have hused := h.usedIds id'
  cases htype : s.issuanceType with
  | issuanceByDefault =>
    simp only [withRevoked, Marked, htype, hrevoked, Finset.mem_insert, List.mem_append,
      List.mem_singleton] at hused ⊢
    rw [hused, or_comm]
  | issuanceOnDemand =>
    simp only [withRevoked, Marked, htype, hrevoked, hhanded, Finset.mem_erase, List.mem_append,
      List.mem_singleton, not_or] at hused ⊢
    rw [hused]
    constructor
    · intro ⟨hne, hmem, hnot⟩
      exact ⟨hmem, hnot, hne⟩
    · intro ⟨hmem, hnot, hne⟩
      exact ⟨hne, hmem, hnot⟩

/-- The stored set tells which indices are valid, apart from the bounds that are not checked. -/
theorem BooksInvariant.revocable_iff (h : BooksInvariant log s)
    (hbounds : s.issuanceType = .issuanceByDefault → 1 ≤ id ∧ id ≤ s.maxCredNum) :
    Revocable s id ↔ ValidIndex s.maxCredNum s.issuanceType log id := by
  have hused := h.usedIds id
  unfold Revocable ValidIndex
  unfold Marked at hused
  cases htype : s.issuanceType with
  | issuanceByDefault =>
    simp only [htype] at hused
    simp only [hused, hbounds htype, true_and, reduceCtorEq, false_implies, and_true, and_self]
  | issuanceOnDemand =>
    simp only [htype] at hused
    simp only [hused, true_implies]
    constructor
    · intro ⟨hmem, hnot⟩
      have hrange := h.mem_handedOut.mp hmem
      have hbound := h.bound
      exact ⟨⟨hrange.1, by omega⟩, hnot, hmem⟩
    · intro ⟨_, hnot, hmem⟩
      exact ⟨hmem, hnot⟩

theorem sums_of_credDef (h : call.credDef = .ok ()) :
    (Call.newCredential call).sums s = [.sum s.info.currId 1] := by
  delta Call.sums
  dsimp only
  rw [h]

theorem sums_of_refused {e : Refusal} (h : call.credDef = .error e) :
    (Call.newCredential call).sums s = [] := by
  delta Call.sums
  dsimp only
  rw [h]

theorem sums_of_parsed (h : parseCredRevId credRevocId = .ok id) :
    (Call.revokeCredential credRevocId (.ok ()) writes).sums s = [.sum s.maxCredNum 1] := by
  delta Call.sums
  dsimp only
  rw [h]

theorem sums_of_unparsed {e : IndyError} (h : parseCredRevId credRevocId = .error e) :
    (Call.revokeCredential credRevocId tailsAccessor writes).sums s = [] := by
  delta Call.sums
  dsimp only
  rw [h]

theorem sums_of_tails_refused {e : Refusal} :
    (Call.revokeCredential credRevocId (.error e) writes).sums s = [] := by
  delta Call.sums
  dsimp only
  cases parseCredRevId credRevocId <;> rfl

/-- The result that a note reports is an error. -/
def Note.failed : Note → Prop
  | .issued _ (.error _) => True
  | .revoked _ (.error _) => True
  | _ => False

theorem writeRegistry_definition (s : Registry U) (revReg : U.Registry)
    (info : RevocationRegistryInfo) (writes : Writes) :
    (writeRegistry s revReg info writes).2.maxCredNum = s.maxCredNum ∧
      (writeRegistry s revReg info writes).2.issuanceType = s.issuanceType := by
  rcases writeRegistry_cases s revReg info writes with ⟨e, left, hwrite, -⟩ | ⟨hwrite, -⟩
  · rw [hwrite]
    exact ⟨rfl, rfl⟩
  · rw [hwrite]
    exact ⟨rfl, rfl⟩

theorem newCredential_definition (build : Build) (s : Registry U) (call : CredentialCall) :
    (newCredential build s call).2.maxCredNum = s.maxCredNum ∧
      (newCredential build s call).2.issuanceType = s.issuanceType := by
  unfold newCredential
  split
  · exact ⟨rfl, rfl⟩
  · exact writeRegistry_definition _ _ _ _

theorem revokeCredential_definition (build : Build) (s : Registry U) (credRevocId : String)
    (tailsAccessor : Except Refusal Unit) (writes : Writes) :
    (revokeCredential build s credRevocId tailsAccessor writes).2.maxCredNum = s.maxCredNum ∧
      (revokeCredential build s credRevocId tailsAccessor writes).2.issuanceType =
        s.issuanceType := by
  unfold revokeCredential
  split
  · exact ⟨rfl, rfl⟩
  · exact writeRegistry_definition _ _ _ _

theorem execute_issued {delta : Option U.Delta} {s' : Registry U}
    (h : newCredential build s call = (.ok (id, delta), s')) :
    execute build s (.newCredential call) = .ok
      (s', (Call.newCredential call).sums s ++ [.issued call (.ok id)]) := by
  delta execute
  dsimp only
  rw [h]

theorem execute_not_issued {e : IndyError} {s' : Registry U}
    (h : newCredential build s call = (.error (.err e), s')) :
    execute build s (.newCredential call) = .ok
      (s', (Call.newCredential call).sums s ++ [.issued call (.error e)]) := by
  delta execute
  dsimp only
  rw [h]

theorem execute_revoked {delta : U.Delta} {s' : Registry U}
    (h : revokeCredential build s credRevocId tailsAccessor writes = (.ok delta, s')) :
    execute build s (.revokeCredential credRevocId tailsAccessor writes) =
      .ok (s', (Call.revokeCredential credRevocId tailsAccessor writes).sums s ++
        [.revoked credRevocId (.ok ())]) := by
  delta execute
  dsimp only
  rw [h]

theorem execute_not_revoked {e : IndyError} {s' : Registry U}
    (h : revokeCredential build s credRevocId tailsAccessor writes = (.error (.err e), s')) :
    execute build s (.revokeCredential credRevocId tailsAccessor writes) =
      .ok (s', (Call.revokeCredential credRevocId tailsAccessor writes).sums s ++
        [.revoked credRevocId (.error e)]) := by
  delta execute
  dsimp only
  rw [h]

/-- A call that returns shows its sums and its result. -/
theorem execute_cases {c : Call} {s' : Registry U} {out : List Note}
    (h : execute build s c = .ok (s', out)) :
    (∃ last, out = c.sums s ++ [last]) ∧
      s'.maxCredNum = s.maxCredNum ∧ s'.issuanceType = s.issuanceType := by
  delta execute at h
  cases c with
  | newCredential call =>
    have hkept := newCredential_definition build s call
    dsimp only at h
    split at h
    · rename_i hrun
      obtain ⟨rfl, rfl⟩ := Prod.mk.inj (Except.ok.inj h)
      rw [hrun] at hkept
      exact ⟨⟨_, rfl⟩, hkept⟩
    · rename_i hrun
      obtain ⟨rfl, rfl⟩ := Prod.mk.inj (Except.ok.inj h)
      rw [hrun] at hkept
      exact ⟨⟨_, rfl⟩, hkept⟩
    · cases h
  | revokeCredential credRevocId tailsAccessor writes =>
    have hkept := revokeCredential_definition build s credRevocId tailsAccessor writes
    dsimp only at h
    split at h
    · rename_i hrun
      obtain ⟨rfl, rfl⟩ := Prod.mk.inj (Except.ok.inj h)
      rw [hrun] at hkept
      exact ⟨⟨_, rfl⟩, hkept⟩
    · rename_i hrun
      obtain ⟨rfl, rfl⟩ := Prod.mk.inj (Except.ok.inj h)
      rw [hrun] at hkept
      exact ⟨⟨_, rfl⟩, hkept⟩
    · cases h

theorem BooksInvariant.newCredential (h : BooksInvariant log s)
    (hb : Bounded s (.newCredential call)) :
    ∃ s' out, execute build s (.newCredential call) = .ok (s', out) ∧
      BooksInvariant (log ++ out) s' := by
  have hlength := h.length_handedOut
  have hbound := h.bound
  cases hdef : call.credDef with
  | error e =>
    refine ⟨s, [.issued call (.error e.1)], ?_, h.note ?_ rfl rfl⟩
    · rw [execute_not_issued (newCredential_refused hdef), sums_of_refused hdef]
      rfl
    · intro hok
      rw [hdef] at hok
      cases hok
  | ok u =>
    have hsum := hb hdef
    have hsummed : BooksInvariant (log ++ [.sum s.info.currId 1]) s := h.note hsum rfl rfl
    have hlength' := hsummed.length_handedOut
    by_cases hfull : s.maxCredNum < s.info.currId + 1
    · refine ⟨s, [.sum s.info.currId 1] ++ [.issued call (.error registryFull)], ?_, ?_⟩
      · rw [execute_not_issued (newCredential_full hdef hsum hfull), sums_of_credDef hdef]
      · rw [← List.append_assoc]
        refine hsummed.note (fun _ => ?_) rfl rfl
        exact ⟨fun _ => by omega, fun _ => rfl⟩
    · rcases newCredential_room build hdef hsum hfull with
        ⟨e, left, hne, hrun, -⟩ | ⟨delta, hrun, -⟩
      · refine ⟨{ s with revReg := left }, [.sum s.info.currId 1] ++
          [.issued call (.error e)], ?_, ?_⟩
        · rw [execute_not_issued hrun, sums_of_credDef hdef]
        · rw [← List.append_assoc]
          have hsound : SoundNote s.maxCredNum s.issuanceType (log ++ [.sum s.info.currId 1])
              (.issued call (.error e)) := by
            intro _
            constructor
            · intro heq
              exact absurd (Except.error.inj heq) hne
            · intro heq
              omega
          exact BooksInvariant.withRevReg (hsummed.note hsound rfl rfl) left
      · have hexecute : execute build s (.newCredential call) =
            .ok ({ s with revReg := signed s, info := ⟨s.info.currId + 1, withIssued s⟩ },
              [.sum s.info.currId 1] ++ [.issued call (.ok (s.info.currId + 1))]) := by
          rw [execute_issued hrun, sums_of_credDef hdef]
        refine ⟨_, _, hexecute, ?_⟩
        rw [← List.append_assoc]
        exact hsummed.issue hfull (signed s) call

theorem BooksInvariant.revokeCredential (h : BooksInvariant log s)
    (hb : Bounded s (.revokeCredential credRevocId tailsAccessor writes)) :
    ∃ s' out, execute build s (.revokeCredential credRevocId tailsAccessor writes) =
      .ok (s', out) ∧ BooksInvariant (log ++ out) s' := by
  cases hparse : parseCredRevId credRevocId with
  | error e =>
    refine ⟨s, [.revoked credRevocId (.error e)], ?_, h.note trivial rfl rfl⟩
    rw [execute_not_revoked (revokeCredential_unparsed hparse), sums_of_unparsed hparse]
    rfl
  | ok id =>
    cases tailsAccessor with
    | error e =>
      refine ⟨s, [.revoked credRevocId (.error e.1)], ?_, h.note trivial rfl rfl⟩
      rw [execute_not_revoked (revokeCredential_refused hparse), sums_of_tails_refused]
      rfl
    | ok u =>
      obtain ⟨hsum, hedges⟩ := hb id hparse rfl
      have hsummed : BooksInvariant (log ++ [.sum s.maxCredNum 1]) s := h.note hsum rfl rfl
      by_cases hfound : id ≤ s.maxCredNum + 1 ∧ Revocable s id
      · rcases revokeCredential_found build hparse hsum hfound.1 hfound.2 with
          ⟨e, left, hrun, -⟩ | ⟨delta, hrun, hdone⟩
        · refine ⟨{ s with revReg := left },
            [.sum s.maxCredNum 1] ++ [.revoked credRevocId (.error e)], ?_, ?_⟩
          · rw [execute_not_revoked hrun, sums_of_parsed hparse]
          · have hfailed : BooksInvariant
                (log ++ [.sum s.maxCredNum 1] ++ [.revoked credRevocId (.error e)]) s :=
              hsummed.note trivial rfl rfl
            rw [← List.append_assoc]
            exact hfailed.withRevReg left
        · have hexecute : execute build s (.revokeCredential credRevocId (.ok ()) writes) =
              .ok ({ s with
                revReg := withoutIndex s id, info := { s.info with usedIds := withRevoked s id } },
                [.sum s.maxCredNum 1] ++ [.revoked credRevocId (.ok ())]) := by
            rw [execute_revoked hrun, sums_of_parsed hparse]
          have hvalid : ValidIndex s.maxCredNum s.issuanceType
              (log ++ [.sum s.maxCredNum 1]) id := by
            refine (hsummed.revocable_iff ?_).mp hfound.2
            intro htype
            have hne := hedges htype hdone
            have hle := hfound.1
            omega
          refine ⟨_, _, hexecute, ?_⟩
          rw [← List.append_assoc]
          exact hsummed.revoke hparse hvalid (withoutIndex s id)
      · refine ⟨s, [.sum s.maxCredNum 1] ++
          [.revoked credRevocId (.error (revocIdNotFound id))], ?_, ?_⟩
        · rw [execute_not_revoked (revokeCredential_not_found hparse hsum hfound),
            sums_of_parsed hparse]
        · rw [← List.append_assoc]
          exact hsummed.note trivial rfl rfl

/-- The sums of a call are seen whenever it returns. -/
theorem mem_of_mem_sums {c : Call} {s' : Registry U} {out : List Note}
    (h : execute build s c = .ok (s', out)) {note : Note}
    (hmem : note ∈ c.sums s) : note ∈ out := by
  obtain ⟨⟨last, rfl⟩, -⟩ := execute_cases h
  exact List.mem_append_left _ hmem

theorem BooksKept.sum_lt (h : BooksKept log s) {a b : ℕ} (hmem : .sum a b ∈ log) :
    a + b < 2 ^ 32 := by
  obtain ⟨pre, post, rfl⟩ := List.append_of_mem hmem
  exact h.notes pre (.sum a b) ⟨post, by simp⟩

/-- A call that is not bounded forms too large a sum, or revokes an index that does not exist. -/
theorem BooksInvariant.not_kept {c : Call} {s' : Registry U} {out : List Note}
    (h : BooksInvariant log s) (hb : ¬ Bounded s c) (hexecute : execute build s c = .ok (s', out)) :
    ¬ BooksKept (log ++ out) s' := by
  intro hkept
  have hsums : ∀ a b, .sum a b ∈ c.sums s → a + b < 2 ^ 32 := by
    intro a b hmem
    exact hkept.sum_lt (List.mem_append_right _ (mem_of_mem_sums hexecute hmem))
  apply hb
  cases c with
  | newCredential call =>
    intro hdef
    refine hsums _ _ ?_
    rw [sums_of_credDef hdef]
    exact List.mem_singleton_self _
  | revokeCredential credRevocId tailsAccessor writes =>
    rintro id hparse rfl
    have hsum : s.maxCredNum + 1 < 2 ^ 32 := by
      refine hsums _ _ ?_
      rw [sums_of_parsed hparse]
      exact List.mem_singleton_self _
    refine ⟨hsum, fun htype hdone => ?_⟩
    by_contra hedge
    have hedge' : id = 0 ∨ id = s.maxCredNum + 1 := by
      by_contra hnot
      exact hedge (not_or.mp hnot)
    have hrevocable : Revocable s id := by
      have hused := h.usedIds id
      simp only [Revocable, Marked, htype] at hused ⊢
      rw [hused]
      intro hmem
      obtain ⟨pre, -, hrange, -⟩ := h.revoked_valid hmem
      omega
    obtain ⟨delta, hrun, -⟩ : ∃ delta, Issuer.revokeCredential build s credRevocId (.ok ()) writes =
        (.ok delta, { s with
          revReg := withoutIndex s id, info := { s.info with usedIds := withRevoked s id } }) ∧
        writes.Done := by
      rcases revokeCredential_found build hparse hsum (by omega) hrevocable with
        ⟨e, left, -, hnot, -⟩ | hrun
      · exact absurd hdone hnot
      · exact hrun
    rw [execute_revoked hrun] at hexecute
    obtain ⟨rfl, rfl⟩ := Prod.mk.inj (Except.ok.inj hexecute)
    rw [← List.append_assoc] at hkept
    obtain ⟨id', hparse', hrange, -⟩ := hkept.notes _ _ (List.prefix_refl _)
    rw [hparse, Except.ok.injEq] at hparse'
    subst hparse'
    change 1 ≤ id ∧ id ≤ s.maxCredNum at hrange
    omega

theorem not_failed_of_mem_sums {c : Call} {note : Note} (h : note ∈ c.sums s) : ¬ note.failed := by
  delta Call.sums at h
  cases c with
  | newCredential call =>
    dsimp only at h
    split at h
    · rw [List.mem_singleton.mp h]
      exact id
    · cases h
  | revokeCredential credRevocId tailsAccessor =>
    dsimp only at h
    split at h
    · rw [List.mem_singleton.mp h]
      exact id
    · cases h

/-- A call that fails leaves the registry as it was. -/
def FailsClean (build : Build) (s : Registry U) (c : Call) : Prop :=
  ∀ s' out, execute build s c = .ok (s', out) → (∃ note ∈ out, note.failed) → s' = s

/-- A call that comes to its writes makes both or none, unless the accumulator stays the same. -/
def WritesTogether (s : Registry U) : Call → Prop
  | .newCredential call => call.Prepared → s.info.currId + 1 ≤ s.maxCredNum → call.writes.Half →
      signed s = s.revReg
  | .revokeCredential credRevocId tailsAccessor writes => ∀ id,
      parseCredRevId credRevocId = .ok id → tailsAccessor = .ok () → id ≤ s.maxCredNum + 1 →
        Revocable s id → writes.Half → withoutIndex s id = s.revReg

theorem failsClean_of_unchanged {c : Call} {out : List Note}
    (h : execute build s c = .ok (s, out)) : FailsClean build s c := by
  intro s' out' h' _
  rw [h] at h'
  exact (Prod.mk.inj (Except.ok.inj h')).1.symm

theorem failsClean_of_not_failed {c : Call} {s' : Registry U} {last : Note}
    (h : execute build s c = .ok (s', c.sums s ++ [last])) (hlast : ¬ last.failed) :
    FailsClean build s c := by
  intro s'' out h' ⟨note, hmem, hnote⟩
  rw [h] at h'
  obtain ⟨-, rfl⟩ := Prod.mk.inj (Except.ok.inj h')
  rcases List.mem_append.mp hmem with hsum | hmem
  · exact absurd hnote (not_failed_of_mem_sums hsum)
  · rw [List.mem_singleton.mp hmem] at hnote
    exact absurd hnote hlast

theorem failsClean_iff_of_failed {c : Call} {left : U.Registry} {last : Note}
    (h : execute build s c = .ok ({ s with revReg := left }, c.sums s ++ [last]))
    (hlast : last.failed) : FailsClean build s c ↔ left = s.revReg := by
  constructor
  · intro hclean
    have hmem : last ∈ c.sums s ++ [last] := List.mem_append_right _ (List.mem_singleton_self _)
    exact congrArg Registry.revReg (hclean _ _ h ⟨last, hmem, hlast⟩)
  · rintro rfl
    exact failsClean_of_unchanged h

theorem failsClean_newCredential_iff (hb : Bounded s (.newCredential call)) :
    FailsClean build s (.newCredential call) ↔ WritesTogether s (.newCredential call) := by
  cases hdef : call.credDef with
  | error e =>
    have hclean : FailsClean build s (.newCredential call) :=
      failsClean_of_unchanged (execute_not_issued (newCredential_refused hdef))
    refine iff_of_true hclean fun hprepared => ?_
    cases hdef.symm.trans hprepared.credDef
  | ok u =>
    have hsum := hb hdef
    by_cases hfull : s.maxCredNum < s.info.currId + 1
    · have hclean : FailsClean build s (.newCredential call) :=
   failsClean_of_unchanged (execute_not_issued (newCredential_full hdef hsum hfull))
      exact iff_of_true hclean fun _ hle => absurd hfull (by omega)
    · rcases newCredential_room build hdef hsum hfull with
        ⟨e, left, -, hrun, hleft⟩ | ⟨delta, hrun, hdone⟩
      · rw [failsClean_iff_of_failed (execute_not_issued hrun) trivial]
        rcases hleft with ⟨rfl, hnot⟩ | ⟨rfl, hprepared, hhalf⟩
        · exact iff_of_true rfl fun hprepared _ hhalf => absurd ⟨hprepared, hhalf⟩ hnot
        · exact ⟨fun heq _ _ _ => heq, fun h => h hprepared (by omega) hhalf⟩
      · have hclean : FailsClean build s (.newCredential call) :=
   failsClean_of_not_failed (execute_issued hrun) not_false
        exact iff_of_true hclean fun _ _ hhalf => absurd hhalf hdone.not_half

theorem failsClean_revokeCredential_iff
    (hb : Bounded s (.revokeCredential credRevocId tailsAccessor writes)) :
    FailsClean build s (.revokeCredential credRevocId tailsAccessor writes) ↔
      WritesTogether s (.revokeCredential credRevocId tailsAccessor writes) := by
  cases hparse : parseCredRevId credRevocId with
  | error e =>
    have hclean : FailsClean build s
        (.revokeCredential credRevocId tailsAccessor writes) :=
      failsClean_of_unchanged (execute_not_revoked (revokeCredential_unparsed hparse))
    refine iff_of_true hclean fun id hid => ?_
    cases hparse.symm.trans hid
  | ok id =>
    cases tailsAccessor with
    | error e =>
      have hclean : FailsClean build s
          (.revokeCredential credRevocId (.error e) writes) :=
        failsClean_of_unchanged (execute_not_revoked (revokeCredential_refused hparse))
      refine iff_of_true hclean fun _ _ htails => ?_
      cases htails
    | ok u =>
      obtain ⟨hsum, -⟩ := hb id hparse rfl
      have hsame : ∀ id', parseCredRevId credRevocId = .ok id' → id' = id := by
        intro id' hid'
        exact Except.ok.inj (hid'.symm.trans hparse)
      by_cases hfound : id ≤ s.maxCredNum + 1 ∧ Revocable s id
      · rcases revokeCredential_found build hparse hsum hfound.1 hfound.2 with
          ⟨e, left, hrun, -, hleft⟩ | ⟨delta, hrun, hdone⟩
        · rw [failsClean_iff_of_failed (execute_not_revoked hrun) trivial]
          rcases hleft with ⟨rfl, hnot⟩ | ⟨rfl, hhalf⟩
          · exact iff_of_true rfl fun _ _ _ _ _ hhalf => absurd hhalf hnot
          · constructor
            · intro heq id' hid' _ _ _ _
              rw [hsame id' hid']
              exact heq
            · intro h
              exact h id hparse rfl hfound.1 hfound.2 hhalf
        · have hclean : FailsClean build s
              (.revokeCredential credRevocId (.ok ()) writes) :=
            failsClean_of_not_failed (execute_revoked hrun) not_false
          exact iff_of_true hclean fun _ _ _ _ _ hhalf => absurd hhalf hdone.not_half
      · have hclean : FailsClean build s
            (.revokeCredential credRevocId (.ok ()) writes) :=
          failsClean_of_unchanged
            (execute_not_revoked (revokeCredential_not_found hparse hsum hfound))
        refine iff_of_true hclean fun id' hid' _ hle hrevocable => ?_
        rw [hsame id' hid'] at hle hrevocable
        exact absurd ⟨hle, hrevocable⟩ hfound

theorem failsClean_iff {c : Call} (hb : Bounded s c) :
    FailsClean build s c ↔ WritesTogether s c := by
  cases c with
  | newCredential call => exact failsClean_newCredential_iff hb
  | revokeCredential credRevocId tailsAccessor writes => exact failsClean_revokeCredential_iff hb

end Steps

section Runs
variable {U : Accumulators}

theorem booksInvariant_newRegistry (m : ℕ) (issuanceType : IssuanceType) (revReg : U.Registry) :
    BooksInvariant [] (newRegistry m issuanceType revReg) := by
  refine ⟨rfl, Nat.zero_le _, ?_, ?_⟩
  · intro id
    cases issuanceType <;> simp [newRegistry, Marked, handedOut, revokedIds]
  · intro pre note hpre
    simp at hpre

/-- The books are kept all along a run exactly when every call is bounded. -/
theorem booksKept_iff_bounded (build : Build) (m : ℕ) (issuanceType : IssuanceType)
    (revReg : U.Registry) (calls : List Call) :
    (∀ pre, pre <+: calls → ∃ s log,
      runSteps (execute build) (newRegistry m issuanceType revReg) pre = .ok (s, log) ∧
        (s.maxCredNum = m ∧ s.issuanceType = issuanceType) ∧ BooksKept log s) ↔
      EveryStep (execute build) Bounded (newRegistry m issuanceType revReg) calls := by
  apply forall_exists_runSteps_iff
    (J := fun log s => (s.maxCredNum = m ∧ s.issuanceType = issuanceType) ∧ BooksInvariant log s)
    ⟨⟨rfl, rfl⟩, booksInvariant_newRegistry m issuanceType revReg⟩
  · intro log s ⟨hdefinition, hs⟩
    exact ⟨hdefinition, hs.booksKept⟩
  · intro log s call ⟨hdefinition, hs⟩ hb
    obtain ⟨s', out, hexecute, hs'⟩ : ∃ s' out, execute build s call = .ok (s', out) ∧
        BooksInvariant (log ++ out) s' := by
      cases call with
      | newCredential call => exact hs.newCredential hb
      | revokeCredential credRevocId tailsAccessor writes => exact hs.revokeCredential hb
    obtain ⟨-, hmax, htype⟩ := execute_cases hexecute
    exact ⟨s', out, hexecute, ⟨hmax.trans hdefinition.1, htype.trans hdefinition.2⟩, hs'⟩
  · intro log s call s' out ⟨_, hs⟩ hb hexecute hkept
    exact hs.not_kept hb hexecute hkept.2

/-- The books are kept all along a run, and no failed call of it changes the wallet, exactly when
every call is bounded and makes its two writes together. -/
theorem revocation_books_iff (build : Build) (m : ℕ) (issuanceType : IssuanceType)
    (revReg : U.Registry) (calls : List Call) :
    ((∀ pre, pre <+: calls → ∃ s log,
        runSteps (execute build) (newRegistry m issuanceType revReg) pre = .ok (s, log) ∧
          (s.maxCredNum = m ∧ s.issuanceType = issuanceType) ∧ BooksKept log s) ∧
      EveryStep (execute build) (FailsClean build) (newRegistry m issuanceType revReg) calls) ↔
      EveryStep (execute build) (fun s call => Bounded s call ∧ WritesTogether s call)
        (newRegistry m issuanceType revReg) calls := by
  rw [booksKept_iff_bounded]
  constructor
  · intro ⟨hbounded, hclean⟩ pre call s log hpre hrun
    have hb := hbounded pre call s log hpre hrun
    exact ⟨hb, (failsClean_iff hb).mp (hclean pre call s log hpre hrun)⟩
  · intro h
    constructor
    · intro pre call s log hpre hrun
      exact (h pre call s log hpre hrun).1
    · intro pre call s log hpre hrun
      obtain ⟨hb, htogether⟩ := h pre call s log hpre hrun
      exact (failsClean_iff hb).mpr htogether

end Runs

section Sample

/-- Accumulators that remember nothing. -/
def noAccumulators : Accumulators where
  Registry := Unit
  Delta := Unit
  sign _ _ _ _ := ((), none)
  revoke _ _ _ := ((), ())

/-- The index 0 of a registry with one credential. -/
def revokeZero : List Call := [.revokeCredential "0" (.ok ()) ⟨.ok (), .ok ()⟩]

theorem index_zero_revoked : ¬ ∀ pre, pre <+: revokeZero →
    ∃ (s : Registry noAccumulators) (log : List Note),
    runSteps (execute .debug) (newRegistry 1 .issuanceByDefault ()) pre = .ok (s, log) ∧
      (s.maxCredNum = 1 ∧ s.issuanceType = .issuanceByDefault) ∧ BooksKept log s := by
  intro h
  obtain ⟨s, log, hrun, ⟨hmax, -⟩, hkept⟩ := h revokeZero (List.prefix_refl _)
  have hlog : runSteps (execute .debug)
      (newRegistry 1 .issuanceByDefault () : Registry noAccumulators) revokeZero =
      .ok (⟨1, .issuanceByDefault, (), ⟨0, {0}⟩⟩, [.sum 1 1] ++ [.revoked "0" (.ok ())]) := by rfl
  rw [hlog, Except.ok.injEq, Prod.mk.injEq] at hrun
  obtain ⟨-, rfl⟩ := hrun
  obtain ⟨id, hparse, hrange, -⟩ :=
    hkept.notes [.sum 1 1] (.revoked "0" (.ok ())) (List.prefix_refl _)
  have hzero : parseCredRevId "0" = .ok 0 := by rfl
  rw [hzero, Except.ok.injEq] at hparse
  omega

end Sample

end SimpleAsset.Indy.Issuer

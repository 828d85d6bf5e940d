import Harusali.Storage.LevelDbKey

set_option autoImplicit false

/-! # The codes of keys

What the writers of `leveldb_key.cc` write and the readers read, as codes: each component has one,
and a reader takes a component off a string exactly if its code stands there (`Reader.Takes`). From
that the keys of a table decode exactly (`LevelDbMutationKey.decode_iff`), and because each code
keeps the order of its values where two first differ, so does a key of its components
(`mutationKey_monotone`, `documentMutationKey_monotone`). -/

namespace Harusali.Firestore

open OrderedCode (stringCode numberCode IsInt64)

/-! ## The codes of components -/

def ComponentLabel.code (label : ComponentLabel) : ByteString := numberCode label.value

theorem ComponentLabel.isInt64_value (label : ComponentLabel) : IsInt64 label.value := by
  cases label <;> exact ⟨by decide, by decide⟩

/-- The values of an `int32_t`. -/
def IsInt32 (n : Int) : Prop := -2 ^ 31 ≤ n ∧ n ≤ 2 ^ 31 - 1

instance (n : Int) : Decidable (IsInt32 n) := inferInstanceAs (Decidable (_ ∧ _))

theorem IsInt32.isInt64 {n : Int} (h : IsInt32 n) : IsInt64 n := by
  obtain ⟨hlo, hhi⟩ := h
  exact ⟨by omega, by omega⟩

def stringComponent (label : ComponentLabel) (value : ByteString) : ByteString :=
  label.code ++ stringCode value

def numberComponent (label : ComponentLabel) (value : Int) : ByteString :=
  label.code ++ numberCode value

def pathCode (path : ResourcePath) : ByteString := path.flatMap (stringComponent .pathSegment)

namespace Writer

theorem writeComponentLabel_eq (dest : ByteString) (label : ComponentLabel) :
    writeComponentLabel dest label = .ok (dest ++ label.code) :=
  OrderedCode.writeSignedNumIncreasing_eq label.isInt64_value dest

theorem writeLabeledInt32_eq (dest : ByteString) (label : ComponentLabel) {value : Int}
    (hvalue : IsInt32 value) :
    writeLabeledInt32 dest label value = .ok (dest ++ numberComponent label value) := by
  rw [writeLabeledInt32, writeComponentLabel_eq]
  refine (OrderedCode.writeSignedNumIncreasing_eq hvalue.isInt64 _).trans ?_
  rw [numberComponent, List.append_assoc]

theorem writeLabeledString_eq (dest : ByteString) (label : ComponentLabel) (value : ByteString) :
    writeLabeledString dest label value = .ok (dest ++ stringComponent label value) := by
  rw [writeLabeledString, writeComponentLabel_eq]
  refine (OrderedCode.writeString_eq _ _).trans ?_
  rw [stringComponent, List.append_assoc]

theorem writeResourcePath_eq (dest : ByteString) (path : ResourcePath) :
    writeResourcePath dest path = .ok (dest ++ pathCode path) := by
  induction path generalizing dest with
  | nil => exact congrArg Except.ok (List.append_nil dest).symm
  | cons segment path ih =>
      have hstep : writeResourcePath dest (segment :: path)
          = writeLabeledString dest .pathSegment segment >>= fun dest =>
            writeResourcePath dest path := rfl
      rw [hstep, writeLabeledString_eq]
      refine (ih _).trans ?_
      rw [pathCode, pathCode, List.flatMap_cons, List.append_assoc]

end Writer

/-! ## Reading -/

theorem bind_eq_ok {α β : Type} {x : Except String α} {f : α → Except String β} {b : β} :
    (x >>= f) = .ok b ↔ ∃ a, x = .ok a ∧ f a = .ok b := by
  cases x with
  | error message => exact ⟨fun h => (nomatch h), fun ⟨_, h, _⟩ => (nomatch h)⟩
  | ok a => exact ⟨fun h => ⟨a, rfl, h⟩, fun ⟨_, ha, h⟩ => by obtain rfl := Except.ok.inj ha; exact h⟩

namespace Reader

variable {α : Type}

/-- `read` succeeds exactly where the reader has not failed and has the code of a valid value in
    front of it, and leaves what follows. -/
def Takes (read : Reader → Except String (α × Reader)) (valid : α → Prop)
    (code : α → ByteString) : Prop :=
  ∀ r a rest, read r = .ok (a, ⟨rest, true⟩) ↔ r.ok = true ∧ valid a ∧ r.src = code a ++ rest

theorem takes_of_read {f : Reader → Except String (α × Reader)}
    {read : ByteString → Except String (Option (α × ByteString))} {valid : α → Prop}
    {code : α → ByteString} (hfailed : ∀ src, ∃ a, f ⟨src, false⟩ = .ok (a, ⟨src, false⟩))
    (hread : ∀ src a rest, f ⟨src, true⟩ = .ok (a, ⟨rest, true⟩) ↔ read src = .ok (some (a, rest)))
    (h : ∀ src a rest, read src = .ok (some (a, rest)) ↔ valid a ∧ src = code a ++ rest) :
    Takes f valid code := by
  rintro ⟨src, ok⟩ a rest
  cases ok with
  | false =>
      obtain ⟨a', hf⟩ := hfailed src
      rw [hf]
      simp
  | true => rw [hread, h, eq_self_iff_true, true_and]

theorem takes_readSignedNumIncreasing : Takes readSignedNumIncreasing IsInt64 numberCode := by
  refine takes_of_read (fun src => ⟨0, rfl⟩) (fun src n rest => ?_) fun src n rest =>
    OrderedCode.readSignedNumIncreasing_iff src rest n
  simp only [readSignedNumIncreasing, if_true]
  rcases OrderedCode.readSignedNumIncreasing src with message | _ | ⟨n', rest'⟩
  · exact ⟨fun h => (nomatch h), fun h => (nomatch h)⟩
  · simp [bind, Except.bind, pure, Except.pure, fail]
  · simp [bind, Except.bind, pure, Except.pure]

theorem takes_readString : Takes readString (fun _ => True) stringCode := by
  refine takes_of_read (fun src => ⟨[], rfl⟩) (fun src s rest => ?_) fun src s rest => by
    rw [OrderedCode.readString_iff, true_and]
  simp only [readString, if_true]
  rcases OrderedCode.readString src with message | _ | ⟨s', rest'⟩
  · exact ⟨fun h => (nomatch h), fun h => (nomatch h)⟩
  · simp [bind, Except.bind, pure, Except.pure, fail]
  · simp [bind, Except.bind, pure, Except.pure]

theorem eq_mk_of_ok {r : Reader} (h : r.ok = true) : r = ⟨r.src, true⟩ := by
  cases r
  exact congrArg _ h

theorem takes_readInt32 : Takes readInt32 IsInt32 numberCode := by
  intro r n rest
  have hread := takes_readSignedNumIncreasing r
  rw [readInt32]
  cases hok : r.ok with
  | false => simp [fail, pure, Except.pure]
  | true =>
      simp only [if_true, bind_eq_ok, Prod.exists, true_and]
      constructor
      · rintro ⟨n', r', hn', heq⟩
        split_ifs at heq with hrange
        · obtain ⟨rfl, rfl⟩ : n' = n ∧ r' = ⟨rest, true⟩ := by simpa [pure, Except.pure] using heq
          exact ⟨hrange.2, ((hread _ _).1 hn').2.2⟩
        · simp [fail, pure, Except.pure] at heq
      · rintro ⟨hn, hsrc⟩
        exact ⟨n, ⟨rest, true⟩, (hread _ _).2 ⟨hok, hn.isInt64, hsrc⟩, if_pos ⟨rfl, hn⟩⟩

theorem readComponentLabelMatching_iff (r : Reader) (label : ComponentLabel) (matching : Bool)
    (rest : ByteString) :
    r.readComponentLabelMatching label = .ok (matching, ⟨rest, true⟩) ↔
      r.ok = true ∧ ∃ n, IsInt64 n ∧ r.src = numberCode n ++ rest ∧
        matching = decide (n = label.value) := by
  have hread := takes_readSignedNumIncreasing r
  rw [readComponentLabelMatching]
  cases hok : r.ok with
  | false => simp [fail, pure, Except.pure]
  | true =>
      simp only [if_true, bind_eq_ok, Prod.exists, true_and]
      constructor
      · rintro ⟨n, r', hn, heq⟩
        split_ifs at heq with hr'
        · obtain ⟨rfl, rfl⟩ : decide (n = label.value) = matching ∧ r' = ⟨rest, true⟩ := by
            simpa [pure, Except.pure] using heq
          exact ⟨n, ((hread _ _).1 hn).2.1, ((hread _ _).1 hn).2.2, rfl⟩
        · simp [fail, pure, Except.pure] at heq
      · rintro ⟨n, hn, hsrc, rfl⟩
        exact ⟨n, ⟨rest, true⟩, (hread _ _).2 ⟨hok, hn, hsrc⟩, rfl⟩

/-- What follows a label is read only if the label is the expected one. -/
theorem takes_labeled {read : Reader → Except String (α × Reader)} {valid : α → Prop}
    {code : α → ByteString} (h : Takes read valid code) (label : ComponentLabel) :
    Takes (fun r => do
      let (matching, r) ← r.readComponentLabelMatching label
      read (if matching then r else r.fail)) valid (fun a => label.code ++ code a) := by
  intro r a rest
  simp only [bind_eq_ok, Prod.exists]
  constructor
  · rintro ⟨matching, r', hlabel, hread⟩
    obtain ⟨hok, hvalid, hsrc⟩ := (h _ _ _).1 hread
    cases matching with
    | false => exact absurd hok (by simp [fail])
    | true =>
        rw [eq_mk_of_ok (r := r') hok] at hlabel
        obtain ⟨hr, n, -, hr', hn⟩ := (readComponentLabelMatching_iff ..).1 hlabel
        obtain rfl : n = label.value := by simpa using hn
        refine ⟨hr, hvalid, ?_⟩
        rw [hr', List.append_assoc]
        exact congrArg (numberCode label.value ++ ·) hsrc
  · rintro ⟨hok, hvalid, hsrc⟩
    refine ⟨true, ⟨code a ++ rest, true⟩, (readComponentLabelMatching_iff ..).2 ⟨hok, label.value,
      label.isInt64_value, ?_, (decide_eq_true rfl).symm⟩, (h _ _ _).2 ⟨rfl, hvalid, rfl⟩⟩
    rw [hsrc, ComponentLabel.code, List.append_assoc]

theorem takes_readBatchId : Takes readBatchId IsInt32 (numberComponent .batchId) :=
  takes_labeled takes_readInt32 .batchId

theorem takes_readLabeledString (label : ComponentLabel) :
    Takes (readLabeledString · label) (fun _ => True) (stringComponent label) :=
  takes_labeled takes_readString label

theorem readTableNameMatching_iff (r : Reader) (tableName : String) (rest : ByteString) :
    r.readTableNameMatching tableName = .ok ⟨rest, true⟩ ↔
      r.ok = true ∧ r.src = stringComponent .tableName (bytesOf tableName) ++ rest := by
  have hread := takes_readLabeledString .tableName r
  simp only [readTableNameMatching, bind_eq_ok, Prod.exists]
  constructor
  · rintro ⟨value, r', hvalue, heq⟩
    split_ifs at heq with hmatch
    · obtain rfl : r' = ⟨rest, true⟩ := by simpa [pure, Except.pure] using heq
      obtain ⟨hok, -, hsrc⟩ := (hread _ _).1 hvalue
      exact ⟨hok, by rw [hsrc, hmatch.2]⟩
    · simp [fail, pure, Except.pure] at heq
  · rintro ⟨hok, hsrc⟩
    exact ⟨_, _, (hread _ rest).2 ⟨hok, trivial, hsrc⟩, congrArg Except.ok (if_pos ⟨rfl, rfl⟩)⟩

theorem readTerminator_iff (r : Reader) (rest : ByteString) :
    r.readTerminator = .ok ⟨rest, true⟩ ↔
      r.ok = true ∧ r.src = ComponentLabel.terminator.code ++ rest := by
  simp only [readTerminator, bind_eq_ok, Prod.exists]
  constructor
  · rintro ⟨matching, r', hlabel, heq⟩
    cases matching with
    | false => simp [fail, pure, Except.pure] at heq
    | true =>
        obtain rfl : r' = ⟨rest, true⟩ := by simpa [pure, Except.pure] using heq
        obtain ⟨hok, n, -, hsrc, hn⟩ := (readComponentLabelMatching_iff ..).1 hlabel
        obtain rfl : n = ComponentLabel.terminator.value := by simpa using hn
        exact ⟨hok, hsrc⟩
  · rintro ⟨hok, hsrc⟩
    exact ⟨true, ⟨rest, true⟩, (readComponentLabelMatching_iff ..).2
      ⟨hok, _, ComponentLabel.isInt64_value _, hsrc, by simp⟩, rfl⟩

end Reader

/-! ## The path of a document -/

namespace Reader

theorem ComponentLabel.code_ne_nil (label : ComponentLabel) : label.code ≠ [] := by
  cases label <;> decide

/-- Where a path ends: at the end of the string, or at a number that is not the label of a segment. -/
def Stops (rest : ByteString) : Prop :=
  rest = [] ∨ ∃ n tail, IsInt64 n ∧ n ≠ ComponentLabel.pathSegment.value ∧ rest = numberCode n ++ tail

theorem readResourcePathLoop_of_stops {fuel : Nat} {path : ResourcePath} {rest : ByteString}
    (hrest : Stops rest) (pathSegments : ResourcePath)
    (hfuel : (pathCode path ++ rest).length < fuel) :
    readResourcePathLoop fuel pathSegments ⟨pathCode path ++ rest, true⟩
      = .ok (pathSegments ++ path, ⟨rest, true⟩) := by
  induction path generalizing fuel pathSegments with
  | nil =>
      cases fuel with
      | zero => exact absurd hfuel (Nat.not_lt_zero _)
      | succ fuel =>
          rw [List.append_nil]
          change readResourcePathLoop (fuel + 1) pathSegments ⟨rest, true⟩ = _
          rcases hrest with rfl | ⟨n, tail, hn, hne, rfl⟩
          · rfl
          · have hlabel := (readComponentLabelMatching_iff ⟨numberCode n ++ tail, true⟩ .pathSegment
              false tail).2 ⟨rfl, n, hn, rfl, (decide_eq_false hne).symm⟩
            rw [readResourcePathLoop]
            split_ifs with hempty
            · rfl
            · rw [hlabel]
              rfl
  | cons segment path ih =>
      cases fuel with
      | zero => exact absurd hfuel (Nat.not_lt_zero _)
      | succ fuel =>
          have hsrc : pathCode (segment :: path) ++ rest
              = ComponentLabel.pathSegment.code ++ (stringCode segment ++ (pathCode path ++ rest)) := by
            simp only [pathCode, stringComponent, List.flatMap_cons, List.append_assoc]
          have hlabel := (readComponentLabelMatching_iff
            ⟨pathCode (segment :: path) ++ rest, true⟩ .pathSegment true
              (stringCode segment ++ (pathCode path ++ rest))).2
            ⟨rfl, _, ComponentLabel.isInt64_value _, hsrc, (decide_eq_true rfl).symm⟩
          have hsegment := (takes_readString ⟨stringCode segment ++ (pathCode path ++ rest), true⟩
            segment (pathCode path ++ rest)).2 ⟨rfl, trivial, rfl⟩
          have hpos : 0 < ComponentLabel.pathSegment.code.length :=
            List.length_pos_iff.2 (ComponentLabel.code_ne_nil _)
          have hlength := congrArg List.length hsrc
          simp only [List.length_append] at hlength hfuel
          have hempty : ¬ (⟨pathCode (segment :: path) ++ rest, true⟩ : Reader).empty = true := by
            rw [hsrc]
            simp [empty, ComponentLabel.code_ne_nil]
          rw [readResourcePathLoop, if_neg hempty, hlabel]
          refine bind_eq_ok.2 ⟨_, rfl, bind_eq_ok.2 ⟨_, hsegment, ?_⟩⟩
          refine (ih (pathSegments ++ [segment]) ?_).trans ?_
          · rw [List.length_append]
            omega
          · rw [List.append_assoc, List.singleton_append]

theorem stops_of_readResourcePathLoop {fuel : Nat} {r : Reader} {pathSegments path : ResourcePath}
    {rest : ByteString} (hfuel : r.src.length < fuel)
    (h : readResourcePathLoop fuel pathSegments r = .ok (path, ⟨rest, true⟩)) :
    r.ok = true ∧ Stops rest ∧ ∃ read, path = pathSegments ++ read ∧ r.src = pathCode read ++ rest := by
  induction fuel generalizing r pathSegments with
  | zero => exact absurd hfuel (Nat.not_lt_zero _)
  | succ fuel ih =>
      rw [readResourcePathLoop] at h
      split_ifs at h with hempty
      · obtain ⟨rfl, rfl⟩ := Prod.mk.inj (Except.ok.inj h)
        obtain rfl : rest = [] := by simpa [empty] using hempty
        exact ⟨rfl, Or.inl rfl, [], (List.append_nil _).symm, rfl⟩
      · obtain ⟨⟨matching, r'⟩, hlabel, h⟩ := bind_eq_ok.1 h
        cases matching with
        | false =>
            obtain ⟨rfl, hr⟩ := Prod.mk.inj (Except.ok.inj h)
            obtain ⟨rfl, hok⟩ := Reader.mk.inj hr
            rw [eq_mk_of_ok hok] at hlabel
            obtain ⟨hr, n, hn, hsrc, hne⟩ := (readComponentLabelMatching_iff ..).1 hlabel
            exact ⟨hr, Or.inr ⟨n, _, hn, of_decide_eq_false hne.symm, hsrc⟩, [],
              (List.append_nil _).symm, rfl⟩
        | true =>
            obtain ⟨⟨segment, r''⟩, hsegment, h⟩ := bind_eq_ok.1 h
            dsimp only at h
            split_ifs at h with hok
            · rw [eq_mk_of_ok hok] at hsegment
              obtain ⟨hok', -, hsrc'⟩ := (takes_readString ..).1 hsegment
              rw [eq_mk_of_ok hok'] at hlabel
              obtain ⟨hr, n, -, hsrc, hn⟩ := (readComponentLabelMatching_iff ..).1 hlabel
              obtain rfl : n = ComponentLabel.pathSegment.value := of_decide_eq_true hn.symm
              have hpos : 0 < ComponentLabel.pathSegment.code.length :=
                List.length_pos_iff.2 (ComponentLabel.code_ne_nil _)
              have hlength := congrArg List.length hsrc
              have hlength' := congrArg List.length hsrc'
              rw [List.length_append] at hlength hlength'
              change _ = ComponentLabel.pathSegment.code.length + _ at hlength
              obtain ⟨-, hstops, read, rfl, hread⟩ := ih (by omega) h
              refine ⟨hr, hstops, segment :: read, by simp, ?_⟩
              rw [hsrc, hsrc', hread]
              simp only [pathCode, stringComponent, ComponentLabel.code, List.flatMap_cons,
                List.append_assoc]
            · rw [(Prod.mk.inj (Except.ok.inj h)).2] at hok
              exact absurd rfl hok

/-- A path of a document is read up to where its segments stop. -/
theorem readDocumentKey_iff (r : Reader) (path : ResourcePath) (rest : ByteString) :
    r.readDocumentKey = .ok (path, ⟨rest, true⟩) ↔
      r.ok = true ∧ path ≠ [] ∧ isDocumentKey path = true ∧ Stops rest ∧
        r.src = pathCode path ++ rest := by
  rw [readDocumentKey, bind_eq_ok]
  constructor
  · rintro ⟨⟨path', r'⟩, hread, h⟩
    dsimp only at h
    split_ifs at h with hvalid
    · obtain ⟨rfl, rfl⟩ := Prod.mk.inj (Except.ok.inj h)
      obtain ⟨hr, hstops, read, rfl, hsrc⟩ :=
        stops_of_readResourcePathLoop (Nat.lt_succ_self _) hread
      exact ⟨hr, hvalid.2.1, hvalid.2.2, hstops, hsrc⟩
    · exact absurd (Reader.mk.inj (Prod.mk.inj (Except.ok.inj h)).2).2 Bool.false_ne_true
  · rintro ⟨hr, hne, hvalid, hstops, hsrc⟩
    refine ⟨(path, ⟨rest, true⟩), ?_, if_pos ⟨rfl, hne, hvalid⟩⟩
    rw [eq_mk_of_ok hr, hsrc]
    exact readResourcePathLoop_of_stops hstops [] (Nat.lt_succ_self _)

end Reader

/-! ## Keys of the tables -/

/-- What the rows of a table begin with that belong to a user. -/
def userCode (tableName : String) (userId : ByteString) : ByteString :=
  stringComponent .tableName (bytesOf tableName) ++ stringComponent .userId userId

/-- The end of the key of a row for a batch. -/
def batchCode (batchId : Int) : ByteString :=
  numberComponent .batchId batchId ++ ComponentLabel.terminator.code

def mutationKey (userId : ByteString) (batchId : Int) : ByteString :=
  userCode kMutationsTable userId ++ batchCode batchId

def documentMutationKey (userId : ByteString) (documentKey : ResourcePath) (batchId : Int) :
    ByteString :=
  userCode kDocumentMutationsTable userId ++ (pathCode documentKey ++ batchCode batchId)

def mutationQueueKey (userId : ByteString) : ByteString :=
  userCode kMutationQueuesTable userId ++ ComponentLabel.terminator.code

theorem writeUserId_eq (tableName : String) (userId : ByteString) :
    (Writer.writeTableName [] tableName >>= fun dest => Writer.writeUserId dest userId)
      = .ok (userCode tableName userId) := by
  rw [Writer.writeTableName, Writer.writeLabeledString_eq]
  exact bind_eq_ok.2 ⟨_, rfl, Writer.writeLabeledString_eq _ _ _⟩

theorem writeBatchId_eq (dest : ByteString) {batchId : Int} (hbatchId : IsInt32 batchId) :
    (Writer.writeBatchId dest batchId >>= Writer.writeTerminator)
      = .ok (dest ++ batchCode batchId) := by
  rw [Writer.writeBatchId, Writer.writeLabeledInt32_eq _ _ hbatchId]
  refine bind_eq_ok.2 ⟨_, rfl, (Writer.writeComponentLabel_eq _ _).trans ?_⟩
  rw [batchCode, List.append_assoc]

namespace LevelDbMutationKey

theorem keyPrefix_eq (userId : ByteString) :
    keyPrefix userId = .ok (userCode kMutationsTable userId) :=
  writeUserId_eq kMutationsTable userId

theorem key_eq (userId : ByteString) {batchId : Int} (hbatchId : IsInt32 batchId) :
    key userId batchId = .ok (mutationKey userId batchId) := by
  have huser := writeUserId_eq kMutationsTable userId
  rw [key, ← bind_assoc, huser]
  exact writeBatchId_eq _ hbatchId

end LevelDbMutationKey

namespace LevelDbDocumentMutationKey

theorem userPrefix_eq (userId : ByteString) :
    userPrefix userId = .ok (userCode kDocumentMutationsTable userId) :=
  writeUserId_eq kDocumentMutationsTable userId

theorem keyPrefix_eq (userId : ByteString) (resourcePath : ResourcePath) :
    keyPrefix userId resourcePath
      = .ok (userCode kDocumentMutationsTable userId ++ pathCode resourcePath) := by
  have huser := writeUserId_eq kDocumentMutationsTable userId
  rw [keyPrefix, ← bind_assoc, huser]
  exact Writer.writeResourcePath_eq _ _

theorem key_eq (userId : ByteString) (documentKey : ResourcePath) {batchId : Int}
    (hbatchId : IsInt32 batchId) :
    key userId documentKey batchId = .ok (documentMutationKey userId documentKey batchId) := by
  have huser := writeUserId_eq kDocumentMutationsTable userId
  rw [key, ← bind_assoc, huser]
  refine bind_eq_ok.2 ⟨_, rfl, bind_eq_ok.2 ⟨_, Writer.writeResourcePath_eq _ _, ?_⟩⟩
  rw [documentMutationKey, ← List.append_assoc]
  exact writeBatchId_eq _ hbatchId

end LevelDbDocumentMutationKey

namespace LevelDbMutationQueueKey

theorem key_eq (userId : ByteString) : key userId = .ok (mutationQueueKey userId) := by
  have huser := writeUserId_eq kMutationQueuesTable userId
  rw [key, ← bind_assoc, huser]
  exact bind_eq_ok.2 ⟨_, rfl, Writer.writeComponentLabel_eq _ _⟩

end LevelDbMutationQueueKey

/-! ## Decoding -/

theorem readBatchId_iff (r : Reader) (batchId : Int) (rest : ByteString) :
    (∃ r', r.readBatchId = .ok (batchId, r') ∧ r'.readTerminator = .ok ⟨rest, true⟩) ↔
      r.ok = true ∧ IsInt32 batchId ∧ r.src = batchCode batchId ++ rest := by
  constructor
  · rintro ⟨r', hbatch, hterminator⟩
    obtain ⟨hok, hsrc'⟩ := (Reader.readTerminator_iff ..).1 hterminator
    rw [Reader.eq_mk_of_ok hok] at hbatch
    obtain ⟨hr, hvalid, hsrc⟩ := (Reader.takes_readBatchId ..).1 hbatch
    exact ⟨hr, hvalid, by rw [hsrc, hsrc', batchCode, List.append_assoc]⟩
  · rintro ⟨hr, hvalid, hsrc⟩
    rw [batchCode, List.append_assoc] at hsrc
    exact ⟨_, (Reader.takes_readBatchId ..).2 ⟨hr, hvalid, hsrc⟩,
      (Reader.readTerminator_iff ..).2 ⟨rfl, rfl⟩⟩

theorem readUserId_iff (tableName : String) (key userId rest : ByteString) :
    (∃ r, Reader.readTableNameMatching ⟨key, true⟩ tableName = .ok r ∧
      r.readUserId = .ok (userId, ⟨rest, true⟩)) ↔ key = userCode tableName userId ++ rest := by
  constructor
  · rintro ⟨r, htable, huser⟩
    obtain ⟨hok, -, hsrc⟩ := (Reader.takes_readLabeledString .userId ..).1 huser
    rw [Reader.eq_mk_of_ok hok] at htable
    obtain ⟨-, hkey⟩ := (Reader.readTableNameMatching_iff ..).1 htable
    change key = _ at hkey
    rw [hkey, hsrc, userCode, List.append_assoc]
  · intro hkey
    rw [userCode, List.append_assoc] at hkey
    exact ⟨_, (Reader.readTableNameMatching_iff ..).2 ⟨rfl, hkey⟩,
      (Reader.takes_readLabeledString .userId ..).2 ⟨rfl, trivial, rfl⟩⟩

/-- `Decode` accepts the keys of the table and nothing else, whatever follows their terminator. -/
theorem LevelDbMutationKey.decode_iff (key userId : ByteString) (batchId : Int) :
    decode key = .ok (some (userId, batchId)) ↔
      IsInt32 batchId ∧ mutationKey userId batchId <+: key := by
  simp only [decode, bind_eq_ok, Prod.exists]
  constructor
  · rintro ⟨r₁, htable, userId', r₂, huser, batchId', r₃, hbatch, r₄, hterminator, heq⟩
    split_ifs at heq with hok
    · obtain ⟨rfl, rfl⟩ := Prod.mk.inj (Option.some.inj (Except.ok.inj heq))
      rw [Reader.eq_mk_of_ok hok] at hterminator
      obtain ⟨hok', hvalid, hsrc⟩ := (readBatchId_iff ..).1 ⟨r₃, hbatch, hterminator⟩
      rw [Reader.eq_mk_of_ok hok'] at huser
      have hkey := (readUserId_iff ..).1 ⟨r₁, htable, huser⟩
      refine ⟨hvalid, r₄.src, ?_⟩
      rw [hkey, hsrc, mutationKey, List.append_assoc]
    · exact absurd (Except.ok.inj heq) (Option.some_ne_none _).symm
  · rintro ⟨hvalid, rest, hkey⟩
    rw [mutationKey, List.append_assoc] at hkey
    obtain ⟨r₁, htable, huser⟩ := (readUserId_iff ..).2 hkey.symm
    obtain ⟨r₃, hbatch, hterminator⟩ :=
      (readBatchId_iff ⟨batchCode batchId ++ rest, true⟩ batchId rest).2 ⟨rfl, hvalid, rfl⟩
    exact ⟨r₁, htable, userId, _, huser, batchId, r₃, hbatch, _, hterminator, rfl⟩

theorem stops_batchCode (batchId : Int) (rest : ByteString) :
    Reader.Stops (batchCode batchId ++ rest) := by
  refine Or.inr ⟨ComponentLabel.batchId.value, numberCode batchId
    ++ (ComponentLabel.terminator.code ++ rest), ComponentLabel.isInt64_value _, by decide, ?_⟩
  rw [batchCode, numberComponent, List.append_assoc, List.append_assoc]
  rfl

theorem LevelDbDocumentMutationKey.decode_iff (key userId : ByteString) (documentKey : ResourcePath)
    (batchId : Int) :
    decode key = .ok (some (userId, documentKey, batchId)) ↔
      (documentKey ≠ [] ∧ isDocumentKey documentKey = true) ∧ IsInt32 batchId ∧
        documentMutationKey userId documentKey batchId <+: key := by
  simp only [decode, bind_eq_ok, Prod.exists]
  constructor
  · rintro ⟨r₁, htable, userId', r₂, huser, path, r₃, hpath, batchId', r₄, hbatch, r₅, hterminator,
      heq⟩
    split_ifs at heq with hok
    · obtain ⟨rfl, hrow⟩ := Prod.mk.inj (Option.some.inj (Except.ok.inj heq))
      obtain ⟨rfl, rfl⟩ := Prod.mk.inj hrow
      rw [Reader.eq_mk_of_ok hok] at hterminator
      obtain ⟨hok', hvalid, hsrc⟩ := (readBatchId_iff ..).1 ⟨r₄, hbatch, hterminator⟩
      rw [Reader.eq_mk_of_ok hok'] at hpath
      obtain ⟨hok'', hne, hdocument, -, hsrc'⟩ := (Reader.readDocumentKey_iff ..).1 hpath
      rw [Reader.eq_mk_of_ok hok''] at huser
      have hkey := (readUserId_iff ..).1 ⟨r₁, htable, huser⟩
      refine ⟨⟨hne, hdocument⟩, hvalid, r₅.src, ?_⟩
      rw [hkey, hsrc', hsrc, documentMutationKey, List.append_assoc, List.append_assoc]
    · exact absurd (Except.ok.inj heq) (Option.some_ne_none _).symm
  · rintro ⟨⟨hne, hdocument⟩, hvalid, rest, hkey⟩
    rw [documentMutationKey, List.append_assoc, List.append_assoc] at hkey
    obtain ⟨r₁, htable, huser⟩ := (readUserId_iff ..).2 hkey.symm
    have hpath := (Reader.readDocumentKey_iff
      ⟨pathCode documentKey ++ (batchCode batchId ++ rest), true⟩ documentKey
      (batchCode batchId ++ rest)).2 ⟨rfl, hne, hdocument, stops_batchCode batchId rest, rfl⟩
    obtain ⟨r₄, hbatch, hterminator⟩ :=
      (readBatchId_iff ⟨batchCode batchId ++ rest, true⟩ batchId rest).2 ⟨rfl, hvalid, rfl⟩
    exact ⟨r₁, htable, userId, _, huser, documentKey, _, hpath, batchId, r₄, hbatch, _, hterminator,
      rfl⟩

/-! ## The order of rows -/

abbrev BatchId := {n : Int // IsInt32 n}

theorem numberComponent_monotone (label : ComponentLabel) :
    Codec.Monotone fun batchId : BatchId => numberComponent label batchId.1 :=
  fun batchId batchId' hlt => (OrderedCode.numberCode_below batchId.2.isInt64 batchId'.2.isInt64
    hlt).append_left label.code

theorem stringComponent_monotone (label : ComponentLabel) : Codec.Monotone (stringComponent label) :=
  OrderedCode.stringCode_monotone.append_left label.code

theorem batchCode_monotone : Codec.Monotone fun batchId : BatchId => batchCode batchId.1 :=
  (numberComponent_monotone .batchId).append_right _

/-- A path ends below where it goes on. -/
theorem batchCode_below (batchId : Int) (segment : ByteString) :
    Codec.Below (batchCode batchId) (stringComponent .pathSegment segment) := by
  rw [batchCode, numberComponent, List.append_assoc]
  exact (OrderedCode.numberCode_below (ComponentLabel.isInt64_value .batchId)
    (ComponentLabel.isInt64_value .pathSegment) (by decide)).append _ _

/-- The rows of `mutation` stand by user and within a user by batch id. -/
theorem mutationKey_monotone : Codec.Monotone fun row : ByteString ×ₗ BatchId =>
    mutationKey (ofLex row).1 (ofLex row).2.1 := by
  have hmonotone := ((stringComponent_monotone .userId).lex batchCode_monotone).append_left
    (stringComponent .tableName (bytesOf kMutationsTable))
  simpa only [mutationKey, userCode, List.append_assoc] using hmonotone

/-- The rows of `document_mutation` stand by user, by path, a document before what is under it, and
    by batch id. -/
theorem documentMutationKey_monotone :
    Codec.Monotone fun row : ByteString ×ₗ (ResourcePath ×ₗ BatchId) =>
      documentMutationKey (ofLex row).1 (ofLex (ofLex row).2).1 (ofLex (ofLex row).2).2.1 := by
  have hpath := (stringComponent_monotone .pathSegment).list batchCode_monotone fun batchId segment =>
    batchCode_below batchId.1 segment
  have hmonotone := ((stringComponent_monotone .userId).lex hpath).append_left
    (stringComponent .tableName (bytesOf kDocumentMutationsTable))
  simpa only [documentMutationKey, userCode, pathCode, List.append_assoc] using hmonotone

/-- A row begins with the prefix of a user exactly if it is one of that user. -/
theorem userCode_prefix_iff (tableName : String) (userId userId' rest : ByteString) :
    userCode tableName userId <+: userCode tableName userId' ++ rest ↔ userId = userId' := by
  rw [userCode, userCode, List.append_assoc, List.prefix_append_right_inj]
  refine ⟨(stringComponent_monotone .userId).eq_of_begins, ?_⟩
  rintro rfl
  exact List.prefix_append _ _

/-- A scan over the prefix of a path sees the rows of the documents at or under it. -/
theorem keyPrefix_prefix_iff (userId userId' : ByteString) (resourcePath documentKey : ResourcePath)
    (batchId : Int) :
    userCode kDocumentMutationsTable userId ++ pathCode resourcePath
        <+: documentMutationKey userId' documentKey batchId ↔
      userId = userId' ∧ resourcePath <+: documentKey := by
  rw [documentMutationKey]
  constructor
  · intro hle
    obtain rfl := (userCode_prefix_iff ..).1 ((List.prefix_append _ _).trans hle)
    refine ⟨rfl, ?_⟩
    exact ((stringComponent_monotone .pathSegment).flatMap_prefix_iff
      (batchCode_below batchId)).1 ((List.prefix_append_right_inj _).1 hle)
  · rintro ⟨rfl, hpath⟩
    exact (List.prefix_append_right_inj _).2 (((stringComponent_monotone
      .pathSegment).flatMap_prefix_iff (batchCode_below batchId)).2 hpath)

/-- **The table `mutation`.** A row has a key, which decodes to its user and batch id and to nothing
    else; the prefix of a user finds the rows of that user; and the rows stand by user and batch
    id. -/
theorem LevelDbMutationKey.mutation_rows (userId : ByteString) (batchId : Int) (hbatchId : IsInt32 batchId) :
    ∃ row, key userId batchId = .ok row ∧
      (∀ src, decode src = .ok (some (userId, batchId)) ↔ row <+: src) ∧
      (∀ userId', ∃ start, keyPrefix userId' = .ok start ∧ (start <+: row ↔ userId' = userId)) ∧
      ∀ userId' batchId' row', IsInt32 batchId' → key userId' batchId' = .ok row' →
        (row < row' ↔ userId < userId' ∨ userId = userId' ∧ batchId < batchId') := by
  refine ⟨mutationKey userId batchId, key_eq userId hbatchId, fun src => ?_, fun userId' =>
    ⟨_, keyPrefix_eq userId', userCode_prefix_iff ..⟩, ?_⟩
  · rw [decode_iff]
    exact ⟨fun h => h.2, fun h => ⟨hbatchId, h⟩⟩
  · intro userId' batchId' row' hbatchId' hrow'
    obtain rfl := Except.ok.inj ((key_eq userId' hbatchId').symm.trans hrow')
    have hlt := mutationKey_monotone.code_lt_iff
      (a := toLex (userId, ⟨batchId, hbatchId⟩)) (b := toLex (userId', ⟨batchId', hbatchId'⟩))
    exact hlt.trans Prod.Lex.toLex_lt_toLex

theorem LevelDbMutationKey.mutation_rows_sampleRow :
    ∃ row, key (bytesOf "u") 1 = .ok row ∧
      (∀ src, decode src = .ok (some (bytesOf "u", 1)) ↔ row <+: src) ∧
      (∀ userId', ∃ start, keyPrefix userId' = .ok start ∧ (start <+: row ↔ userId' = bytesOf "u")) ∧
      ∀ userId' batchId' row', IsInt32 batchId' → key userId' batchId' = .ok row' →
        (row < row' ↔ bytesOf "u" < userId' ∨ bytesOf "u" = userId' ∧ 1 < batchId') :=
  LevelDbMutationKey.mutation_rows (bytesOf "u") 1 ⟨by decide, by decide⟩

/-- **The table `document_mutation`.** A row decodes to its user, document and batch id; the prefix of
    a user and a path finds the rows of the user's documents at or under the path; and the rows
    stand by user, by path and by batch id, those of a document together and before those of the
    documents under it. -/
theorem LevelDbDocumentMutationKey.document_mutation_rows (userId : ByteString) (documentKey : ResourcePath)
    (batchId : Int) (hdocumentKey : documentKey ≠ [] ∧ isDocumentKey documentKey = true)
    (hbatchId : IsInt32 batchId) :
    ∃ row, key userId documentKey batchId = .ok row ∧
      (∀ src, decode src = .ok (some (userId, documentKey, batchId)) ↔ row <+: src) ∧
      (∀ userId' path, ∃ start, keyPrefix userId' path = .ok start ∧
        (start <+: row ↔ userId' = userId ∧ path <+: documentKey)) ∧
      ∀ userId' documentKey' batchId' row', IsInt32 batchId' →
        key userId' documentKey' batchId' = .ok row' →
        (row < row' ↔ userId < userId' ∨ userId = userId' ∧
          (documentKey < documentKey' ∨ documentKey = documentKey' ∧ batchId < batchId')) := by
  refine ⟨documentMutationKey userId documentKey batchId, key_eq userId documentKey hbatchId,
    fun src => ?_, fun userId' path => ⟨_, keyPrefix_eq userId' path, keyPrefix_prefix_iff ..⟩, ?_⟩
  · rw [decode_iff]
    exact ⟨fun h => h.2.2, fun h => ⟨hdocumentKey, hbatchId, h⟩⟩
  · intro userId' documentKey' batchId' row' hbatchId' hrow'
    obtain rfl := Except.ok.inj ((key_eq userId' documentKey' hbatchId').symm.trans hrow')
    have hlt := documentMutationKey_monotone.code_lt_iff
      (a := toLex (userId, toLex (documentKey, ⟨batchId, hbatchId⟩)))
      (b := toLex (userId', toLex (documentKey', ⟨batchId', hbatchId'⟩)))
    refine hlt.trans (Prod.Lex.toLex_lt_toLex.trans ?_)
    exact or_congr_right (and_congr_right fun _ => Prod.Lex.toLex_lt_toLex)

theorem LevelDbDocumentMutationKey.document_mutation_rows_sampleRow :
    ∃ row, key (bytesOf "u") [bytesOf "User", bytesOf "u"] 1 = .ok row ∧
      (∀ src, decode src = .ok (some (bytesOf "u", [bytesOf "User", bytesOf "u"], 1)) ↔
        row <+: src) ∧
      (∀ userId' path, ∃ start, keyPrefix userId' path = .ok start ∧
        (start <+: row ↔ userId' = bytesOf "u" ∧ path <+: [bytesOf "User", bytesOf "u"])) ∧
      ∀ userId' documentKey' batchId' row', IsInt32 batchId' →
        key userId' documentKey' batchId' = .ok row' →
        (row < row' ↔ bytesOf "u" < userId' ∨ bytesOf "u" = userId' ∧
          ([bytesOf "User", bytesOf "u"] < documentKey' ∨
            [bytesOf "User", bytesOf "u"] = documentKey' ∧ 1 < batchId')) :=
  LevelDbDocumentMutationKey.document_mutation_rows (bytesOf "u") [bytesOf "User", bytesOf "u"] 1
    ⟨List.cons_ne_nil _ _, rfl⟩ ⟨by decide, by decide⟩

end Harusali.Firestore

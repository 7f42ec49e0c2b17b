import SampleAuthApi.Sessions.Bounds

/-!
# Redis as it is

What `TokenStore` writes is ASCII and is read back as it was written, whatever the device ids and
names are (`document_roundtrip`).  The keys of refresh tokens, device sets and blacklist entries
never have the same name, and no endpoint uses one of them for the other kind.  So the service over
one keyspace of bytes runs in lockstep with the service over typed documents (`wire_lockstep`): no
answer of Redis is ever of the wrong type or unreadable.
-/

namespace SampleAuthApi

open Pool

variable {T K : Type}

/-! ## Documents -/

/-- An ASCII character is one byte. -/
lemma utf8EncodeChar_of_lt {c : Char} (h : c.toNat < 128) :
    String.utf8EncodeChar c = [UInt8.ofNat c.toNat] := by
  have hle : c.toNat ≤ 127 := by omega
  simp [String.utf8EncodeChar, hle]

/-- ASCII text is ASCII in UTF-8. -/
lemma ascii_toByteArray {cs : List Char} (h : Json.Ascii cs) :
    Bytes.Ascii (String.ofList cs).toByteArray := by
  intro u hu
  rw [String.toByteArray_ofList, List.utf8Encode] at hu
  simp only [List.data_toByteArray] at hu
  obtain ⟨c, hc, hcu⟩ := List.mem_flatMap.mp hu
  rw [utf8EncodeChar_of_lt (h c hc), List.mem_singleton] at hcu
  have hlt : c.toNat < 128 := h c hc
  rw [hcu, UInt8.toNat_ofNat']
  omega

/-- What is stored for a document is ASCII, `json.loads` of it is the dictionary that was given to
`json.dumps`, and so the document is read back. -/
theorem document_roundtrip (d : Document) : d.encode.Ascii ∧
    Document.loads d.encode = some d.toJson ∧ Document.decode d.encode = some d :=
  ⟨ascii_toByteArray (Json.ascii_dumps _), Document.loads_encode d, Document.decode_encode d⟩

/-! ## Lockstep -/

variable [Instant T]

/-- Redis holds what the client reads in it. -/
def WireStores.Faithful (s : WireStores T) : Prop := wire.Represents s.redis (wire.view s.redis)

/-- A command that fits its keys is answered as the typed store answers it. -/
lemma WireStores.Faithful.send {s : WireStores T} (h : s.Faithful) {cmd : RedisCmd}
    (hfits : wire.Fits cmd) :
    (s.send cmd).2.Faithful ∧
      ∀ i, SampleAuthApi.perform i .go (.redis cmd) s.read =
        some ((s.send cmd).1, (s.send cmd).2.read) := by
  cases hvalid : cmd.isValid with
  | true =>
    obtain ⟨a, redis, hrun, hdecode, hrep⟩ := h.run (t := s.now) hfits hvalid
    have hsend : s.send cmd = (.ok (s.read.redis.answer s.now cmd), { s with redis }) := by
      unfold WireStores.send
      rw [hrun]
      simp only [hdecode]
      rfl
    rw [hsend]
    have hview : wire.view redis = (wire.view s.redis).update s.now cmd := hrep.view_eq
    refine ⟨?_, ?_⟩
    · change wire.Represents redis (wire.view redis)
      rw [hview]
      exact hrep
    · intro i
      refine (if_pos hvalid).trans ?_
      rw [WireStores.read, WireStores.read, hview]
  | false =>
    have hrun : s.redis.run s.now (wire.encode cmd) = .error .invalidExpire :=
      Redis.Encoding.run_encode_of_not_isValid hvalid
    have hsend : s.send cmd = (.error .redisResponse, s) := by
      unfold WireStores.send
      rw [hrun]
    rw [hsend]
    exact ⟨h, fun i => if_neg (by simp [hvalid])⟩

/-- A call to anything but Redis does not look at Redis. -/
lemma perform_others {i : ℕ} {c : Choice T} {o : Op T} (ho : ∀ cmd, o ≠ .redis cmd)
    (s : WireStores T) :
    perform i c o s.read = (WireStores.perform i c o s).map fun p => (p.1, p.2.read) := by
  cases o with
  | redis cmd => exact absurd rfl (ho cmd)
  | uuid4 =>
    cases c with
    | uuid u =>
      change (if u ∈ s.drawn then none else some _) =
        ((if u ∈ s.drawn then none else some _).map _).map _
      split <;> rfl
    | _ => rfl
  | flush ws =>
    cases c with
    | go =>
      change (s.db.flush Database.apply Write.conflicts i ws).map _ =
        (((s.db.flush Database.apply Write.conflicts i ws).map _).map _).map _
      rw [Option.map_map, Option.map_map]
      rfl
    | _ => rfl
  | _ => cases c <;> rfl

/-- The moves of the environment do not look at Redis. -/
lemma drift_others (c : Choice T) (s : WireStores T) :
    drift c s.read = (WireStores.drift c s).map WireStores.read := by
  cases c with
  | clock t =>
    change (if s.now ≤ t then some _ else none) =
      ((if s.now ≤ t then some _ else none).map _).map _
    split <;> rfl
  | setStatus id status =>
    by_cases hp : (s.db.pending.any fun p =>
        (Write.updateUser id { status := some status }).conflicts p.2) = true
    · have hothers : drift (.setStatus id status) s.others = none := if_pos hp
      rw [WireStores.drift, hothers]
      exact if_pos hp
    · have hothers : drift (.setStatus id status) s.others = some _ := if_neg hp
      rw [WireStores.drift, hothers]
      exact if_neg hp
  | _ => rfl

/-- The service over bytes, read by the client, is the service over documents. -/
theorem wireServer_refines [DecidableEq K] (x : Externals K) :
    Refines WireStores.read WireStores.Faithful Op.Fits (wireServer x)
      (server x : System (Op T) _ _ _ _ _ _) where
  body _ := rfl
  admits _ _ := rfl
  perform i c o s hs ho := by
    cases o with
    | redis cmd =>
      cases c with
      | go => exact (hs.send ho).2 i
      | _ => rfl
    | _ => exact perform_others (by rintro _ ⟨⟩) s
  keeps i c o s r s' hs ho h := by
    cases o with
    | redis cmd =>
      cases c with
      | go =>
        have hsend : s.send cmd = (r, s') := Option.some.inj h
        have hkeeps := (hs.send ho).1
        rwa [hsend] at hkeeps
      | fail =>
        cases Option.some.inj h
        exact hs
      | _ => cases h
    | _ =>
      obtain ⟨p, -, hp⟩ := Option.map_eq_some_iff.mp h
      cases hp
      exact hs
  drift c s _ := drift_others c s
  drift_keeps c s s' hs h := by
    obtain ⟨r, -, hr⟩ := Option.map_eq_some_iff.mp h
    cases hr
    exact hs

omit [Instant T] in
/-- An empty Redis holds what the client reads in it. -/
lemma faithful_initial (now : T) (db : Database T) (drawn : List Uuid) :
    (WireStores.initial now db drawn).Faithful := by
  have hempty : wire.Represents (Redis.Keyspace.empty : Redis.Keyspace Bytes Bytes Bytes T)
      Redis.Store.empty := wire.represents_empty
  unfold WireStores.Faithful WireStores.initial
  rw [hempty.view_eq]
  exact hempty

/-- The service over one keyspace of bytes and the service over typed documents run in lockstep:
the same events are possible, and the requests get the same answers. -/
theorem wire_lockstep [DecidableEq K] (x : Externals K) (now : T) (db : Database T)
    (drawn : List Uuid) (es : List (Event (Request K) (Choice T))) :
    (runWith (wireServer x) anyEvent es (Pool.initial (WireStores.initial now db drawn))).map
        (Pool.map WireStores.read) =
      runWith (server x) anyEvent es (Pool.initial (Stores.initial now db drawn)) := by
  have hread : (WireStores.initial now db drawn).read = Stores.initial now db drawn := by
    have hempty : wire.Represents (Redis.Keyspace.empty : Redis.Keyspace Bytes Bytes Bytes T)
        Redis.Store.empty := wire.represents_empty
    unfold WireStores.read WireStores.initial
    rw [hempty.view_eq]
    rfl
  rw [← hread, ← Pool.map_initial]
  exact ((wireServer_refines x).runWith (fun q => endpoint_within x q)
    (faithful_initial now db drawn) (budgeted_initial _) (fun _ => true) es).symm

end SampleAuthApi

import CodexApi.Delivery.Books
import CodexApi.Delivery.Views

/-!
# What a part knows is true

`Tracks` ties the view of a part to what all parts share: the rows it knows are its own, the ones it
holds are started, its `PendingRequest` is where the view has it, what the view calls closed is
closed, and a row that is in nobody's care is settled. It speaks of rows of the part only, so
the steps of other parts do not touch it.
-/

namespace CodexApi.Delivery

/-! ### The relation -/

/-- The row that is inserted without its code being told. -/
def Inserting.row? : Inserting → Option RequestId
  | executed id | leaked id => some id
  | idle | orphaned _ => none

/-- The row that is in the care of a `PendingRequest` or its task. -/
def Custody.row? : Custody → Option RequestId
  | free => none
  | guarded id _ | closing id _ _ _ | closed id _ => some id

/-- If the last word is a terminal event, it was already the last one when this word was said. -/
def Word.Precedes (word : Word) (cause : Cause) : Prop :=
  ∀ terminal, cause = .terminal terminal → word.cause = .terminal terminal

/-- The attempts that a finalizing task has left. -/
inductive Left : Bool → List Attempt → Prop
  | fresh {attempts : List Attempt} (hordered : Ordered attempts) : Left false attempts
  | retry (httpStatus : Nat) : Left true [⟨.upstreamError, some httpStatus, none⟩]

/-- A finalization fits what the operation had been told when it was ordered. -/
structure Finalization.Fits (path : ApiPath) (f : Finalization) : Prop where
  word : f.word.Sound
  justified : ∃ rates, Justified path f.word.cause rates f.attempt
  retry : f.retry = true → f.attempt.status = .upstreamError ∧ f.attempt.usage = none

/-- The row is finalized by an attempt that was ordered after the last terminal event. -/
def Shared.Booked (sh : Shared) (id : RequestId) (attempt : Attempt) (cause : Cause) : Prop :=
  ∃ f ∈ sh.finalized, f.id = id ∧ f.attempt = attempt ∧ f.word.Precedes cause

/-- How far a finalizing task has come. -/
inductive Closing (sh : Shared) (custody : Custody) (storeFailed : Bool) (row : Admitted)
    (cause : Cause) : List Attempt → Prop
  | running {first : Attempt} {rest : List Attempt} {word : Word}
    (hcustody : custody = .closing row.id (first :: rest) false word)
    (hword : word.Precedes cause) : Closing sh custody storeFailed row cause (first :: rest)
  | retrying {first last : Attempt} {word : Word}
    (hcustody : custody = .closing row.id [last] true word) :
    Closing sh custody storeFailed row cause [first, last]
  | succeeded {first : Attempt} {rest : List Attempt}
    (hcustody : custody = .closed row.id true) (hbooked : sh.Booked row.id first cause) :
    Closing sh custody storeFailed row cause (first :: rest)
  | retried {first last : Attempt} (hcustody : custody = .closed row.id false)
    (hrecorded : storeFailed = true ∨ sh.Recorded row.id last) :
    Closing sh custody storeFailed row cause [first, last]
  | failed {first : Attempt} (hcustody : custody = .closed row.id false)
    (hfailed : storeFailed = true) : Closing sh custody storeFailed row cause [first]

/-- The `PendingRequest` is where the code has it. -/
def PendingIn (sh : Shared) (part : Part) (v : View) : Prop :=
  match v.pending with
  | .absent => ∀ id httpStatus, part.custody ≠ .guarded id httpStatus
  | .opened row httpStatus => part.custody = .guarded row.id httpStatus
  | .closing row attempts => Closing sh part.custody part.storeFailed row v.cause attempts

/-- Who is to finalize a row can do so. -/
def CustodyIn (sh : Shared) (part : Part) (v : View) : Prop :=
  match part.custody with
  | .free => True
  | .guarded id httpStatus => id ∈ v.ids ∧ sh.Started id ∧
    ∀ status ∈ httpStatus, 100 ≤ status ∧ status ≤ 599
  | .closing id attempts retry word => id ∈ v.ids ∧ sh.Started id ∧ Left retry attempts ∧
    word.Sound ∧ ∃ rates, ∀ attempt ∈ attempts, Justified part.path word.cause rates attempt
  | .closed id _ => id ∈ v.ids ∧ (part.storeFailed = true ∨ sh.Settled id)

/-- What has been closed last is closed. -/
def ClosureIn (sh : Shared) (part : Part) (v : View) : Prop :=
  match v.closure with
  | none => True
  | some (.committed row attempt) => row.id ∈ v.ids ∧ sh.Booked row.id attempt v.cause
  | some (.retried row attempt) => row.id ∈ v.ids ∧
    (part.storeFailed = true ∨ sh.Recorded row.id attempt)
  | some (.rejection id httpStatus) => id ∈ v.ids ∧ sh.Rejected id httpStatus

/-- What a part knows is true of what all parts share. -/
structure Tracks (sh : Shared) (index : Nat) (part : Part) (v : View) : Prop where
  owns : ∀ id, id ∈ v.ids ∨ part.inserting.row? = some id → sh.owners[id]? = some index
  owned : ∀ id, sh.owners[id]? = some index →
    id ∈ v.ids ∨ part.inserting.row? = some id ∨ part.storeFailed = true
  fresh : ∀ id, part.inserting.row? = some id → id ∉ v.ids
  held : ∀ row ∈ v.held, sh.Started row.id
  pending : part.code.isSome = true → PendingIn sh part v
  custody : CustodyIn sh part v
  closure : ClosureIn sh part v
  storeFailed : v.storeFailed = true → part.storeFailed = true
  settled : ∀ id ∈ v.ids, sh.Settled id ∨ part.storeFailed = true ∨ (∃ row ∈ v.held, row.id = id) ∨
    part.custody.row? = some id
  apart : part.custody = .free ∨ v.held = []
  webSocket : part.path = .webSocket → part.custody = .free
  finalized : ∀ f ∈ sh.finalized, sh.owners[f.id]? = some index → f.id ∈ v.ids ∧ f.Fits part.path
  shutdown : v.cause = .interrupted .shutdown → sh.shutdown = true

variable {sh sh' : Shared} {index : Nat} {part part' : Part} {v v' : View} {id : RequestId}

/-! ### Growing -/

/-- What is settled or recorded of some rows stays so. -/
structure Shared.Grows (sh : Shared) (ids : List RequestId) (sh' : Shared) : Prop where
  settled : ∀ id ∈ ids, sh.Settled id → sh'.Settled id
  rejected : ∀ id ∈ ids, ∀ httpStatus, sh.Rejected id httpStatus → sh'.Rejected id httpStatus
  finalized : ∀ f ∈ sh.finalized, f.id ∈ ids → f ∈ sh'.finalized

theorem Shared.Evolves.grows (h : sh.Evolves index sh') (ids : List RequestId) :
    sh.Grows ids sh' where
  settled := by
    rintro id - ⟨row, hrow, hsettled⟩
    rcases h.row_or_finalized hrow with hrow' | ⟨hstarted, -⟩
    · exact ⟨row, hrow', hsettled⟩
    · exact absurd hstarted hsettled
  rejected := by
    rintro id - httpStatus ⟨row, hrow, hrejected, hhttp⟩
    rcases h.row_or_finalized hrow with hrow' | ⟨hstarted, -⟩
    · exact ⟨row, hrow', hrejected, hhttp⟩
    · rw [hrejected] at hstarted
      cases hstarted
  finalized := fun f hf _ => h.finalized_subset hf

section

variable {ids : List RequestId}

theorem Shared.Grows.recorded (h : sh.Grows ids sh') (hid : id ∈ ids) {attempt : Attempt}
    (hs : sh.Recorded id attempt) : sh'.Recorded id attempt := by
  obtain ⟨f, hf, rfl, hattempt⟩ := hs
  exact ⟨f, h.finalized f hf hid, rfl, hattempt⟩

theorem Shared.Grows.booked (h : sh.Grows ids sh') (hid : id ∈ ids) {attempt : Attempt}
    {cause : Cause} (hs : sh.Booked id attempt cause) : sh'.Booked id attempt cause := by
  obtain ⟨f, hf, rfl, hbooked⟩ := hs
  exact ⟨f, h.finalized f hf hid, rfl, hbooked⟩

end

/-- A part keeps its closure, whatever the rows and itself come to. -/
theorem ClosureIn.mono (hc : ClosureIn sh part v) (h : sh.Grows v.ids sh')
    (hstore : part.storeFailed = true → part'.storeFailed = true) : ClosureIn sh' part' v := by
  unfold ClosureIn at hc ⊢
  cases hclosure : v.closure with
  | none => trivial
  | some closure =>
    rw [hclosure] at hc
    cases closure with
    | committed row attempt => exact ⟨hc.1, h.booked hc.1 hc.2⟩
    | retried row attempt => exact ⟨hc.1, hc.2.imp hstore (h.recorded hc.1)⟩
    | rejection id httpStatus => exact ⟨hc.1, h.rejected id hc.1 httpStatus hc.2⟩

theorem Closing.mono {row : Admitted} {cause : Cause} {attempts : List Attempt}
    (hc : Closing sh part.custody part.storeFailed row cause attempts) (h : sh.Grows v.ids sh') (hid : row.id ∈ v.ids)
    (hcustody : part'.custody = part.custody)
    (hstore : part.storeFailed = true → part'.storeFailed = true) :
    Closing sh' part'.custody part'.storeFailed row cause attempts := by
  cases hc with
  | running hclosing hword => exact .running (hcustody.trans hclosing) hword
  | retrying hclosing => exact .retrying (hcustody.trans hclosing)
  | succeeded hclosed hbooked => exact .succeeded (hcustody.trans hclosed) (h.booked hid hbooked)
  | retried hclosed hrecorded =>
    exact .retried (hcustody.trans hclosed) (hrecorded.imp hstore (h.recorded hid))
  | failed hclosed hfailed => exact .failed (hcustody.trans hclosed) (hstore hfailed)

/-- The row of a custody is one of the part. -/
theorem CustodyIn.mem_ids (hc : CustodyIn sh part v) (hid : part.custody.row? = some id) :
    id ∈ v.ids := by
  unfold CustodyIn at hc
  cases hcustody : part.custody with
  | free =>
    rw [hcustody] at hid
    cases hid
  | guarded | closing | closed =>
    rw [hcustody] at hid hc
    cases hid
    exact hc.1

theorem Closing.mem_ids {row : Admitted} {cause : Cause} {attempts : List Attempt}
    (hc : Closing sh part.custody part.storeFailed row cause attempts) (hcustody : CustodyIn sh part v) : row.id ∈ v.ids := by
  refine hcustody.mem_ids ?_
  cases hc with
  | running h | retrying h | succeeded h | retried h | failed h =>
    rw [h]
    rfl

/-- The started row of a custody stays started if it is not the one that a step finalizes. -/
theorem CustodyIn.mono (hc : CustodyIn sh part v) (h : sh.Grows v.ids sh')
    (hstarted : ∀ id, part.custody.row? = some id → sh.Started id → sh'.Started id)
    (hpath : part'.path = part.path) (hcustody : part'.custody = part.custody)
    (hstore : part.storeFailed = true → part'.storeFailed = true) : CustodyIn sh' part' v := by
  unfold CustodyIn at hc ⊢
  rw [hcustody]
  cases hpart : part.custody with
  | free => trivial
  | guarded id httpStatus =>
    rw [hpart] at hc hstarted
    exact ⟨hc.1, hstarted id rfl hc.2.1, hc.2.2⟩
  | closing id attempts retry word =>
    rw [hpart] at hc hstarted
    rw [hpath]
    exact ⟨hc.1, hstarted id rfl hc.2.1, hc.2.2⟩
  | closed id ok =>
    rw [hpart] at hc
    exact ⟨hc.1, hc.2.imp hstore (h.settled id hc.1)⟩

theorem PendingIn.mono (hp : PendingIn sh part v) (hc : CustodyIn sh part v)
    (h : sh.Grows v.ids sh') (hcustody : part'.custody = part.custody)
    (hstore : part.storeFailed = true → part'.storeFailed = true) : PendingIn sh' part' v := by
  unfold PendingIn at hp ⊢
  cases hpending : v.pending with
  | absent =>
    rw [hpending] at hp
    intro id httpStatus
    rw [hcustody]
    exact hp id httpStatus
  | opened row httpStatus =>
    rw [hpending] at hp
    exact hcustody.trans hp
  | closing row attempts =>
    rw [hpending] at hp
    exact hp.mono h (hp.mem_ids hc) hcustody hstore

/-! ### Steps that are not about the rows of the part -/

/-- A word keeps preceding the last one as long as no new terminal event comes. -/
theorem Shared.Booked.of_cause {attempt : Attempt} {cause cause' : Cause}
    (hs : sh.Booked id attempt cause)
    (h : ∀ terminal, cause' = .terminal terminal → cause = .terminal terminal) :
    sh.Booked id attempt cause' := by
  obtain ⟨f, hf, hid, hattempt, hword⟩ := hs
  exact ⟨f, hf, hid, hattempt, fun terminal hterminal => hword terminal (h terminal hterminal)⟩

theorem Closing.of_cause {row : Admitted} {cause cause' : Cause} {attempts : List Attempt}
    (hc : Closing sh part.custody part.storeFailed row cause attempts)
    (h : ∀ terminal, cause' = .terminal terminal → cause = .terminal terminal) :
    Closing sh part.custody part.storeFailed row cause' attempts := by
  cases hc with
  | running hclosing hword =>
    exact .running hclosing fun terminal hterminal => hword terminal (h terminal hterminal)
  | retrying hclosing => exact .retrying hclosing
  | succeeded hclosed hbooked => exact .succeeded hclosed (hbooked.of_cause h)
  | retried hclosed hrecorded => exact .retried hclosed hrecorded
  | failed hclosed hfailed => exact .failed hclosed hfailed

theorem ClosureIn.follows (hc : ClosureIn sh part v) (hv : v.Follows v') :
    ClosureIn sh part v' := by
  rcases hv.closure with hsame | hnone
  swap
  · unfold ClosureIn
    rw [hnone]
    trivial
  unfold ClosureIn at hc ⊢
  rw [hsame, hv.ids]
  cases hclosure : v.closure with
  | none => trivial
  | some closure =>
    rw [hclosure] at hc hsame
    cases closure with
    | committed row attempt =>
      rcases hv.terminal with hcause | ⟨hnone, -⟩
      · exact ⟨hc.1, hc.2.of_cause hcause⟩
      · rw [hsame] at hnone
        cases hnone
    | retried row attempt => exact hc
    | rejection id httpStatus => exact hc

theorem PendingIn.follows (hp : PendingIn sh part v) (hv : v.Follows v') :
    PendingIn sh part v' := by
  unfold PendingIn at hp ⊢
  rw [hv.pending]
  cases hpending : v.pending with
  | absent =>
    rw [hpending] at hp
    exact hp
  | opened row httpStatus =>
    rw [hpending] at hp
    exact hp
  | closing row attempts =>
    rw [hpending] at hp
    rcases hv.terminal with hcause | ⟨-, hnot⟩
    · exact hp.of_cause hcause
    · exact absurd (hv.pending.trans hpending) (hnot row attempts)

theorem CustodyIn.of_subset (hc : CustodyIn sh part v) (hids : v.ids ⊆ v'.ids) :
    CustodyIn sh part v' := by
  unfold CustodyIn at hc ⊢
  cases hcustody : part.custody with
  | free => trivial
  | guarded | closing | closed =>
    rw [hcustody] at hc
    exact ⟨hids hc.1, hc.2⟩

theorem ClosureIn.of_subset (hc : ClosureIn sh part v) (hids : v.ids ⊆ v'.ids)
    (hclosure : v'.closure = v.closure) (hcause : v'.cause = v.cause) : ClosureIn sh part v' := by
  unfold ClosureIn at hc ⊢
  rw [hclosure, hcause]
  cases h : v.closure with
  | none => trivial
  | some closure =>
    rw [h] at hc
    cases closure with
    | committed | retried | rejection => exact ⟨hids hc.1, hc.2⟩

theorem Shared.Grows.refl (sh : Shared) (ids : List RequestId) : sh.Grows ids sh :=
  ⟨fun _ _ h => h, fun _ _ _ h => h, fun _ h _ => h⟩

theorem Tracks.owner (ht : Tracks sh index part v) (hid : id ∈ v.ids) :
    sh.owners[id]? = some index :=
  ht.owns id (.inl hid)

/-- **The steps of other parts do not touch what a part knows.** -/
theorem Tracks.keeps (ht : Tracks sh index part v) (hv : v.Sound part.path)
    (h : sh.Keeps index sh') : Tracks sh' index part v := by
  have hledger : ∀ id ∈ v.ids, sh'.ledger[id]? = sh.ledger[id]? :=
    fun id hid => h.ledger id (ht.owner hid)
  have hstarted : ∀ id ∈ v.ids, sh.Started id → sh'.Started id := by
    rintro id hid ⟨row, hrow, hstarted⟩
    exact ⟨row, (hledger id hid).trans hrow, hstarted⟩
  have hgrows : sh.Grows v.ids sh' := by
    refine ⟨?_, ?_, fun f hf hid => (h.finalized f (ht.owner hid)).mpr hf⟩
    · rintro id hid ⟨row, hrow, hsettled⟩
      exact ⟨row, (hledger id hid).trans hrow, hsettled⟩
    · rintro id hid httpStatus ⟨row, hrow, hrejected⟩
      exact ⟨row, (hledger id hid).trans hrow, hrejected⟩
  exact {
    owns := fun id hid => (h.owners id).mpr (ht.owns id hid)
    owned := fun id howner => ht.owned id ((h.owners id).mp howner)
    fresh := ht.fresh
    held := fun row hrow => hstarted row.id (hv.owned row hrow) (ht.held row hrow)
    pending := fun hcode => (ht.pending hcode).mono ht.custody hgrows rfl id
    custody := ht.custody.mono hgrows (fun id hid => hstarted id (ht.custody.mem_ids hid)) rfl rfl id
    closure := ht.closure.mono hgrows id
    storeFailed := ht.storeFailed
    settled := fun id hid => (ht.settled id hid).imp_left (hgrows.settled id hid)
    apart := ht.apart
    webSocket := ht.webSocket
    finalized := fun f hf howner => by
      have howner := (h.owners f.id).mp howner
      exact ht.finalized f ((h.finalized f howner).mp hf) howner
    shutdown := fun hcause => h.shutdown (ht.shutdown hcause) }

/-- **Replies that are not about rows**, and steps that do not touch the view. -/
theorem Tracks.follows (ht : Tracks sh index part v) (hv : v.Follows v')
    (hpath : part'.path = part.path) (hcode : part.code.isSome = true ∨ part'.code.isSome = false)
    (hinserting : part'.inserting = part.inserting) (hcustody : part'.custody = part.custody)
    (hstore : part.storeFailed = true → part'.storeFailed = true)
    (hshutdown : v'.cause = .interrupted .shutdown → sh.shutdown = true) :
    Tracks sh index part' v' where
  owns := by rw [hv.ids, hinserting]; exact ht.owns
  owned := by
    rw [hv.ids, hinserting]
    exact fun id howner => (ht.owned id howner).imp_right (Or.imp_right hstore)
  fresh := by rw [hv.ids, hinserting]; exact ht.fresh
  held := by rw [hv.held]; exact ht.held
  pending := fun hcode' => by
    have hcode := hcode.resolve_right (by simp [hcode'])
    exact ((ht.pending hcode).follows hv).mono
      (ht.custody.of_subset (hv.ids ▸ List.Subset.refl _)) (.refl _ _) hcustody hstore
  custody := (ht.custody.of_subset (hv.ids ▸ List.Subset.refl _)).mono (.refl _ _) (fun _ _ h => h) hpath hcustody hstore
  closure := (ht.closure.follows hv).mono (.refl _ _) hstore
  storeFailed := fun h => hstore (ht.storeFailed (hv.storeFailed ▸ h))
  settled := by
    rw [hv.ids, hv.held, hcustody]
    exact fun id hid => (ht.settled id hid).imp_right (Or.imp_left hstore)
  apart := by rw [hv.held, hcustody]; exact ht.apart
  webSocket := by rw [hpath, hcustody]; exact ht.webSocket
  finalized := by rw [hv.ids, hpath]; exact ht.finalized
  shutdown := hshutdown

end CodexApi.Delivery

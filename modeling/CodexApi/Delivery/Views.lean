import CodexApi.Delivery.HandlersRespect
import CodexApi.Delivery.Replies

/-!
# The view of a trace

What the code of a part knows is a function of what it has done and been told (`viewOf`). Under the
contract such a view is sound in itself, its rows are those that the trace has inserted, and its last
word is that of the trace, which is true of client and shutdown.
-/

namespace CodexApi.Delivery

variable {path : ApiPath} {v : View} {effect : Effect} {reply : effect.Reply} {trace : List Entry}
  {id : RequestId}

/-- What the code knows after a trace. -/
def viewOf (trace : List Entry) : View :=
  trace.foldl (fun v entry => v.after entry.effect entry.reply) .start

@[simp]
theorem viewOf_append (trace : List Entry) (entry : Entry) :
    viewOf (trace ++ [entry]) = (viewOf trace).after entry.effect entry.reply := by
  simp [viewOf]

@[simp]
theorem wordOf_append (trace : List Entry) (entry : Entry) :
    wordOf (trace ++ [entry]) = (wordOf trace).hear entry := by
  simp [wordOf]

/-! ### Minor effects -/

/-- A terminal event is the last word because it came just now, or was it before. -/
theorem View.terminal_after {terminal : TerminalEvent}
    (h : (v.after effect reply).cause = .terminal terminal) :
    effect.observe reply = some (.terminal terminal) ∨
      effect.observe reply = none ∧ v.cause = .terminal terminal :=
  hear_eq_terminal h

/-- A view after a reply that is not about rows. -/
structure View.Follows (v v' : View) : Prop where
  ids : v'.ids = v.ids
  held : v'.held = v.held
  pending : v'.pending = v.pending
  closure : v'.closure = v.closure ∨ v'.closure = none
  storeFailed : v'.storeFailed = v.storeFailed
  /-- A terminal event that came just now finds nothing closed or being closed. -/
  terminal : (∀ terminal, v'.cause = .terminal terminal → v.cause = .terminal terminal) ∨
    v'.closure = none ∧ ∀ row attempts, v'.pending ≠ .closing row attempts

theorem View.book_of_minor (v : View) (reply : effect.Reply) (hminor : effect.minor = true) :
    (v.book effect reply).ids = v.ids ∧ (v.book effect reply).held = v.held ∧
      (v.book effect reply).pending = v.pending ∧
      ((v.book effect reply).closure = v.closure ∨ (v.book effect reply).closure = none) ∧
      (v.book effect reply).storeFailed = v.storeFailed := by
  induction effect with
  | select closable effect ih =>
    cases reply with
    | shutdown | closed => exact ⟨rfl, rfl, rfl, .inl rfl, rfl⟩
    | done reply => exact ih reply hminor
  | plan | prewarmReply => cases reply <;> exact ⟨rfl, rfl, rfl, .inl rfl, rfl⟩
  | model slug =>
    cases hpending : v.pending <;> simp [View.book, hpending]
  | receive =>
    refine ⟨rfl, rfl, rfl, ?_, rfl⟩
    simp only [View.book]
    split
    · exact .inr rfl
    · exact .inl rfl
  | insert | finalize | newPending | responseStarted | spawnFinalizer | join | dropPending =>
    cases hminor
  | _ => exact ⟨rfl, rfl, rfl, .inl rfl, rfl⟩

/-- What a view owes to itself. -/
structure View.Sound (path : ApiPath) (v : View) : Prop where
  nodup : v.ids.Nodup
  owned : ∀ row ∈ v.held, row.id ∈ v.ids
  held : (v.held.map (·.id)).Nodup
  webSocket : path = .webSocket → v.pending = .absent
  http : path ≠ .webSocket → v.ids.length ≤ 1
  exclusive : v.dispatching = true → v.relaying = false

/-- **A reply to a minor effect is not about rows.** -/
theorem View.follows_of_minor (hv : v.Sound path) (hminor : effect.minor = true)
    (hpre : (contract path).pre v effect) : v.Follows (v.after effect reply) := by
  obtain ⟨hids, hheld, hpending, hclosure, hstoreFailed⟩ :=
    View.book_of_minor v reply hminor
  refine ⟨hids, hheld, hpending, hclosure, hstoreFailed, ?_⟩
  by_cases hlistens : effect.listens = true
  swap
  · refine .inl fun terminal hterminal => ?_
    rcases View.terminal_after hterminal with hobserve | ⟨-, hcause⟩
    · exact absurd (listens_of_terminal hobserve) hlistens
    · exact hcause
  have hlisten : v.Listens → (v.after effect reply).closure = none ∧
      ∀ row attempts, (v.after effect reply).pending ≠ .closing row attempts := by
    rintro ⟨hnone, row, httpStatus, hopened⟩
    refine ⟨hclosure.elim (fun h => h.trans hnone) fun h => h, fun row' attempts h => ?_⟩
    rw [show (v.after effect reply).pending = v.pending from hpending, hopened] at h
    cases h
  cases effect with
  | receive =>
    have habsent : v.pending = .absent := hv.webSocket hpre.1
    by_cases hterminal : (ConnectionEvent.cause reply).isTerminal = true
    · refine .inr ⟨by simp [View.after, View.book, hterminal], fun row attempts h => ?_⟩
      rw [show (v.after .receive reply).pending = v.pending from rfl, habsent] at h
      cases h
    · refine .inl fun terminal h => ?_
      rcases View.terminal_after h with hobserve | ⟨hnone, -⟩
      · have hcause : ConnectionEvent.cause reply = .terminal terminal := Option.some.inj hobserve
        rw [hcause] at hterminal
        exact absurd rfl hterminal
      · cases hnone
  | next | nextRecord => exact hpre.1.elim
  | select closable effect =>
    obtain ⟨⟨-, hwaits⟩, -, -⟩ := hpre
    cases effect with
    | next | nextRecord => exact .inr (hlisten hwaits)
    | select closable effect =>
      cases effect with
      | next => exact .inr (hlisten hwaits)
      | _ => exact hwaits.elim
    | receive => exact hwaits.elim
    | _ => cases hlistens
  | _ => cases hlistens

/-! ### Effects about rows -/

theorem after_insert_rejected {insertion : Insertion} (h : insertion.admitted = none) :
    v.after (.insert insertion) (.ok id) = { v with
      ids := v.ids ++ [id]
      closure := some (.rejection id insertion.row.httpStatus) } := by
  simp only [View.after, View.book, h, Effect.observe, Cause.hear]

theorem after_insert_admitted {insertion : Insertion} {model : EffectiveModel}
    (h : insertion.admitted = some model) :
    v.after (.insert insertion) (.ok id) = { v with
      ids := v.ids ++ [id], held := v.held ++ [⟨id, model⟩], dispatching := !v.relaying } := by
  simp only [View.after, View.book, h, Effect.observe, Cause.hear]

theorem after_newPending {row : Admitted} (hheld : v.held = [row]) (hid : row.id = id) :
    v.after (.newPending id) () = { v with held := [], pending := .opened row none } := by
  simp [View.after, View.book, hheld, hid, Effect.observe, Cause.hear]

theorem after_responseStarted {row : Admitted} {started : Option Nat} {httpStatus : Nat}
    (h : v.pending = .opened row started) :
    v.after (.responseStarted httpStatus) () =
      { v with pending := .opened row (some httpStatus) } := by
  simp only [View.after, View.book, h, Effect.observe, Cause.hear]

theorem ids_after_join {ok : Bool} : (v.book .join ok).ids = v.ids := by
  simp only [View.book]
  split
  · split <;> rfl
  · rfl

theorem held_after_join {ok : Bool} : (v.book .join ok).held = v.held := by
  simp only [View.book]
  split
  · split <;> rfl
  · rfl

/-! ### Soundness -/

/-- Code comes on its way to the upstream by an admission only. -/
theorem View.dispatching_after (h : (v.after effect reply).dispatching = true) :
    v.dispatching = true ∧ effect.isSelect = false ∨
      ∃ insertion id model, (⟨effect, reply⟩ : Sigma Effect.Reply) = ⟨.insert insertion, .ok id⟩ ∧
        insertion.admitted = some model ∧ v.relaying = false := by
  cases effect with
  | insert insertion =>
    cases reply with
    | error error => exact .inl ⟨h, rfl⟩
    | ok id =>
      cases hadmitted : insertion.admitted with
      | none =>
        simp only [View.after, View.book, hadmitted] at h
        exact .inl ⟨h, rfl⟩
      | some model =>
        simp only [View.after, View.book, hadmitted, Bool.not_eq_true'] at h
        exact .inr ⟨insertion, id, model, rfl, hadmitted, h⟩
  | select closable effect => cases reply <;> cases h
  | finalize id attempt => cases reply <;> cases h
  | newPending id =>
    simp only [View.after, View.book] at h
    exact .inl ⟨by split at h <;> exact h, rfl⟩
  | responseStarted | spawnFinalizer =>
    simp only [View.after, View.book] at h
    exact .inl ⟨by split at h <;> exact h, rfl⟩
  | join =>
    simp only [View.after, View.book] at h
    refine .inl ⟨?_, rfl⟩
    split at h
    · split at h <;> exact h
    · exact h
  | model slug =>
    simp only [View.after, View.book] at h
    refine .inl ⟨?_, rfl⟩
    split at h
    · exact (Bool.and_eq_true _ _ ▸ h).1
    · cases h
  | sendCreate generates frame =>
    simp only [View.after, View.book, Bool.and_eq_true] at h
    exact .inl ⟨h.1.1, rfl⟩
  | plan | prewarmReply => cases reply <;> first | exact .inl ⟨h, rfl⟩ | cases h
  | _ => exact .inl ⟨h, rfl⟩

/-- A session comes to relay a response by sending a generation only. -/
theorem View.relaying_after (h : (v.after effect reply).relaying = true) :
    v.relaying = true ∨ ∃ frame, (⟨effect, reply⟩ : Sigma Effect.Reply) = ⟨.sendCreate true frame, true⟩ := by
  cases effect with
  | sendCreate generates frame =>
    simp only [View.after, View.book, Bool.or_eq_true, Bool.and_eq_true] at h
    refine h.imp_right ?_
    rintro ⟨rfl, rfl⟩
    exact ⟨frame, rfl⟩
  | receive =>
    simp only [View.after, View.book, Bool.and_eq_true] at h
    exact .inl h.1
  | insert insertion =>
    cases reply with
    | error error => exact .inl h
    | ok id => cases hadmitted : insertion.admitted <;> simp only [View.after, View.book, hadmitted] at h <;> exact .inl h
  | newPending | responseStarted | spawnFinalizer | model =>
    simp only [View.after, View.book] at h
    exact .inl (by split at h <;> exact h)
  | join =>
    simp only [View.after, View.book] at h
    refine .inl ?_
    split at h
    · split at h <;> exact h
    · exact h
  | select closable effect => cases reply <;> exact .inl h
  | plan | prewarmReply | finalize => cases reply <;> exact .inl h
  | _ => exact .inl h

theorem View.exclusive_after (hv : v.dispatching = true → v.relaying = false)
    (h : (v.after effect reply).dispatching = true) : (v.after effect reply).relaying = false := by
  rw [← Bool.not_eq_true]
  intro hrelaying
  rcases View.relaying_after hrelaying with hbefore | ⟨frame, heq⟩
  · rcases View.dispatching_after h with ⟨hdispatching, -⟩ | ⟨_, _, _, -, -, hnot⟩
    · rw [hv hdispatching] at hbefore
      cases hbefore
    · rw [hnot] at hbefore
      cases hbefore
  · cases heq
    simp [View.after, View.book] at h

/-- The rows stay as they are. -/
theorem View.Sound.of_same {v' : View} (hv : v.Sound path) (hids : v'.ids = v.ids)
    (hheld : v'.held = v.held) (hpending : path = .webSocket → v'.pending = .absent)
    (hexclusive : v'.dispatching = true → v'.relaying = false) : v'.Sound path where
  nodup := hids ▸ hv.nodup
  owned := hids ▸ hheld ▸ hv.owned
  held := hheld ▸ hv.held
  webSocket := hpending
  http := hids ▸ hv.http
  exclusive := hexclusive

/-- **Code that respects the contract keeps its view sound.** -/
theorem View.Sound.after (hv : v.Sound path) (hpre : (contract path).pre v effect)
    (hmay : (contract path).may v effect reply) : (v.after effect reply).Sound path := by
  have hexclusive : (v.after effect reply).dispatching = true →
      (v.after effect reply).relaying = false := View.exclusive_after hv.exclusive
  by_cases hminor : effect.minor = true
  · have hfollows : v.Follows (v.after effect reply) := View.follows_of_minor hv hminor hpre
    exact hv.of_same hfollows.ids hfollows.held
      (fun hpath => hfollows.pending.trans (hv.webSocket hpath)) hexclusive
  cases effect with
  | insert insertion =>
    cases reply with
    | error error => exact hv.of_same rfl rfl hv.webSocket hexclusive
    | ok id =>
      obtain ⟨⟨-, hhttp⟩, -⟩ := hpre
      have hnodup : (v.ids ++ [id]).Nodup :=
        List.nodup_append.mpr ⟨hv.nodup, List.nodup_singleton id, fun a ha b hb heq =>
          hmay (List.mem_singleton.mp hb ▸ heq ▸ ha)⟩
      have hlength : path ≠ .webSocket → (v.ids ++ [id]).length ≤ 1 := fun hpath => by
        simp [(hhttp hpath).1]
      cases hadmitted : insertion.admitted with
      | none =>
        rw [after_insert_rejected hadmitted] at hexclusive ⊢
        exact ⟨hnodup, fun row hrow => List.mem_append_left _ (hv.owned row hrow), hv.held,
          hv.webSocket, hlength, hexclusive⟩
      | some model =>
        rw [after_insert_admitted hadmitted] at hexclusive ⊢
        refine ⟨hnodup, fun row hrow => ?_, ?_, hv.webSocket, hlength, hexclusive⟩
        · rcases List.mem_append.mp hrow with hrow | hrow
          · exact List.mem_append_left _ (hv.owned row hrow)
          · rw [List.mem_singleton.mp hrow]
            exact List.mem_append_right _ (List.mem_singleton_self id)
        · rw [List.map_append]
          refine List.nodup_append.mpr ⟨hv.held, List.nodup_singleton id, fun a ha b hb heq => ?_⟩
          obtain ⟨row, hrow, rfl⟩ := List.mem_map.mp ha
          have hb : b = id := List.mem_singleton.mp hb
          exact hmay (hb ▸ heq ▸ hv.owned row hrow)
  | finalize id attempt =>
    cases reply with
    | error error => exact hv.of_same rfl rfl hv.webSocket hexclusive
    | ok =>
      exact ⟨hv.nodup, fun row hrow => hv.owned row (List.mem_of_mem_filter hrow),
        hv.held.sublist (List.filter_sublist.map _), hv.webSocket, hv.http, hexclusive⟩
  | newPending id =>
    obtain ⟨⟨hpath, -, row, hheld, hid⟩, -⟩ := hpre
    rw [after_newPending hheld hid] at hexclusive ⊢
    exact ⟨hv.nodup, fun row hrow => (by cases hrow), List.nodup_nil, fun h => absurd h hpath, hv.http,
      hexclusive⟩
  | responseStarted httpStatus =>
    obtain ⟨⟨-, -, row, started, hopened⟩, -⟩ := hpre
    rw [after_responseStarted hopened] at hexclusive ⊢
    exact hv.of_same rfl rfl (fun hpath => by rw [hv.webSocket hpath] at hopened; cases hopened)
      hexclusive
  | spawnFinalizer attempts =>
    obtain ⟨⟨row, started, hopened, -⟩, -⟩ := hpre
    rw [after_spawnFinalizer hopened] at hexclusive ⊢
    exact hv.of_same rfl rfl (fun hpath => by rw [hv.webSocket hpath] at hopened; cases hopened)
      hexclusive
  | join =>
    refine hv.of_same ids_after_join held_after_join (fun hpath => ?_) hexclusive
    obtain ⟨⟨row, attempts, hclosing⟩, -⟩ := hpre
    rw [hv.webSocket hpath] at hclosing
    cases hclosing
  | dropPending => exact hv.of_same rfl rfl (fun _ => rfl) hexclusive
  | select closable effect =>
    obtain ⟨⟨hpath, hwaits⟩, -⟩ := hpre
    cases effect with
    | join =>
      cases reply with
      | shutdown | closed => exact hv.of_same rfl rfl hv.webSocket hexclusive
      | done ok => exact hv.of_same ids_after_join held_after_join (fun h => absurd h hpath) hexclusive
    | select closable effect =>
      cases effect <;> first | exact hwaits.elim | exact absurd rfl hminor
    | _ => first | exact hwaits.elim | exact absurd rfl hminor
  | _ => exact absurd rfl hminor

/-! ### The last word -/

/-- The last word of a trace is what its view says. -/
@[simp]
theorem wordOf_cause (trace : List Entry) : (wordOf trace).cause = (viewOf trace).cause := by
  induction trace using List.reverseRecOn with
  | nil => rfl
  | append_singleton trace entry ih =>
    rw [wordOf_append, viewOf_append]
    simp only [Word.hear, View.after, ih]
    split <;> rfl

/-- A word that client or shutdown came first is true of how they stood when it came. -/
structure Word.Sound (word : Word) : Prop where
  clientGone : word.cause = .interrupted .clientGone → word.connected = false
  shutdown : word.cause = .interrupted .shutdown → word.shutdown = true

theorem Word.Sound.hear {word : Word} {sh : Shared} {part : Part} (hword : word.Sound)
    (htold : part.Told sh effect reply) :
    (word.hear ⟨effect, reply, part.connected, sh.shutdown⟩).Sound := by
  cases hobserve : effect.observe reply with
  | none => simpa [Word.hear, hobserve, Cause.hear] using hword
  | some heard =>
    cases hcause : word.cause with
    | failed failure =>
      simp only [Word.hear, hobserve, hcause, Cause.settled, Bool.not_true, Bool.and_false,
        Bool.false_eq_true, if_false, Cause.hear]
      split <;> exact ⟨fun h => (by cases h), fun h => by cases h⟩
    | clear | interrupted | terminal =>
      simp only [Word.hear, hobserve, hcause, Cause.settled, Bool.not_false, Bool.and_true,
        Option.isSome_some, if_true, Cause.hear]
      exact ⟨fun h => htold.of_clientGone (h ▸ hobserve), fun h => htold.of_shutdown (h ▸ hobserve)⟩

/-! ### Failed finalizations -/

theorem View.failed_subset : v.failed ⊆ (v.after effect reply).failed := by
  show v.failed ⊆ (v.book effect reply).failed
  induction effect with
  | select closable effect ih =>
    cases reply with
    | shutdown | closed => exact List.Subset.refl _
    | done reply => exact ih
  | insert insertion =>
    cases reply with
    | error error => exact List.Subset.refl _
    | ok id => cases hadmitted : insertion.admitted <;> simp [View.book, hadmitted]
  | finalize =>
    cases reply with
    | error error => exact List.subset_append_left _ _
    | ok => exact List.Subset.refl _
  | plan | prewarmReply => cases reply <;> exact List.Subset.refl _
  | newPending | responseStarted | spawnFinalizer | model =>
    simp only [View.book]
    split <;> exact List.Subset.refl _
  | join =>
    simp only [View.book]
    split
    · split <;> exact List.Subset.refl _
    · exact List.Subset.refl _
  | _ => exact List.Subset.refl _

/-- A row that a session has failed to finalize stays in its view. -/
theorem mem_failed_of_any (h : trace.any (Entry.failsToFinalize id) = true) :
    id ∈ (viewOf trace).failed := by
  induction trace using List.reverseRecOn with
  | nil => cases h
  | append_singleton trace entry ih =>
    rw [viewOf_append]
    rw [List.any_append, Bool.or_eq_true] at h
    rcases h with h | h
    · exact View.failed_subset (ih h)
    · simp only [List.any_cons, List.any_nil, Bool.or_false] at h
      obtain ⟨effect, reply, connected, shutdown⟩ := entry
      cases effect <;> try cases h
      case finalize id' attempt =>
        cases reply with
        | ok => cases h
        | error error =>
          rw [← of_decide_eq_true h]
          exact List.mem_append_right _ (List.mem_singleton_self _)

/-! ### Admissions -/

/-- The row that a reply tells of, with the model that it is admitted with. -/
def Effect.admits : (effect : Effect) → effect.Reply → Option Admitted
  | insert insertion, .ok id => insertion.admitted.map (⟨id, ·⟩)
  | select _ effect, .done reply => effect.admits reply
  | _, _ => none

/-- The admitted rows of a trace. -/
def admissions (trace : List Entry) : List Admitted :=
  trace.filterMap fun entry => entry.effect.admits entry.reply

theorem View.ids_subset_book : v.ids ⊆ (v.book effect reply).ids := by
  induction effect generalizing v with
  | select closable effect ih =>
    cases reply with
    | shutdown | closed => exact List.Subset.refl _
    | done reply => exact ih
  | insert insertion =>
    cases reply with
    | error error => exact List.Subset.refl _
    | ok id =>
      simp only [View.book]
      split <;> exact List.subset_append_left _ _
  | finalize | plan | prewarmReply => cases reply <;> exact List.Subset.refl _
  | newPending | responseStarted | spawnFinalizer | model =>
    simp only [View.book]
    split <;> exact List.Subset.refl _
  | join => exact ids_after_join ▸ List.Subset.refl _
  | _ => exact List.Subset.refl _

theorem View.mem_ids_book {row : Admitted} (h : effect.admits reply = some row) :
    row.id ∈ (v.book effect reply).ids := by
  induction effect with
  | select closable effect ih =>
    cases reply with
    | shutdown | closed => cases h
    | done reply => exact ih h
  | insert insertion =>
    cases reply with
    | error error => cases h
    | ok id =>
      obtain ⟨model, hadmitted, rfl⟩ := Option.map_eq_some_iff.mp h
      simp [View.book, hadmitted]
  | _ => cases h

/-- The code knows the rows that it has been told of. -/
theorem mem_ids_of_admits {row : Admitted} (hentry : entry ∈ trace)
    (hadmits : entry.effect.admits entry.reply = some row) : row.id ∈ (viewOf trace).ids := by
  induction trace using List.reverseRecOn with
  | nil => cases hentry
  | append_singleton trace last ih =>
    rw [viewOf_append]
    rcases List.mem_append.mp hentry with hentry | hentry
    · exact View.ids_subset_book (ih hentry)
    · rw [List.mem_singleton.mp hentry] at hadmits
      exact View.mem_ids_book hadmits

/-- The row in the care of a `PendingRequest` or its task. -/
def Pending.rows : Pending → List Admitted
  | absent => []
  | opened row _ | closing row _ => [row]

/-- The admitted row that has been closed last. -/
def Closure.rows : Closure → List Admitted
  | committed row _ | retried row _ => [row]
  | rejection _ _ => []

/-- The admitted rows that a view speaks of. -/
def View.rows (v : View) : List Admitted :=
  v.held ++ v.pending.rows ++ (v.closure.map Closure.rows).getD []

theorem View.mem_rows {row : Admitted} : row ∈ v.rows ↔
    row ∈ v.held ∨ row ∈ v.pending.rows ∨ ∃ closure, v.closure = some closure ∧ row ∈ closure.rows := by
  cases hclosure : v.closure <;> simp [View.rows, hclosure]

/-- A reply tells of no other row than the one it admits. -/
theorem View.mem_rows_book {row : Admitted} (h : row ∈ (v.book effect reply).rows) :
    row ∈ v.rows ∨ effect.admits reply = some row := by
  induction effect with
  | select closable effect ih =>
    cases reply with
    | shutdown | closed => exact .inl h
    | done reply => exact ih h
  | insert insertion =>
    cases reply with
    | error error => exact .inl h
    | ok id =>
      cases hadmitted : insertion.admitted with
      | none =>
        simp only [View.book, hadmitted, View.mem_rows] at h ⊢
        rcases h with h | h | ⟨closure, hclosure, h⟩
        · exact .inl (.inl h)
        · exact .inl (.inr (.inl h))
        · cases hclosure
          cases h
      | some model =>
        simp only [View.book, hadmitted, View.mem_rows, List.mem_append, List.mem_singleton] at h ⊢
        rcases h with (h | rfl) | h
        · exact .inl (.inl h)
        · exact .inr (by rw [Effect.admits, hadmitted]; rfl)
        · exact .inl (.inr h)
  | finalize id attempt =>
    cases reply with
    | error error => exact .inl h
    | ok =>
      refine .inl (View.mem_rows.mpr ?_)
      rcases View.mem_rows.mp h with h | h | ⟨closure, hclosure, h⟩
      · exact .inl (List.mem_of_mem_filter h)
      · exact .inr (.inl h)
      · obtain ⟨found, hfound, rfl⟩ := Option.map_eq_some_iff.mp hclosure
        rw [List.mem_singleton.mp h]
        exact .inl (List.mem_of_find?_eq_some hfound)
  | newPending id =>
    simp only [View.book] at h
    split at h
    · rename_i found hfound
      refine .inl (View.mem_rows.mpr ?_)
      rcases View.mem_rows.mp h with h | h | h
      · exact .inl (List.mem_of_mem_filter h)
      · rw [List.mem_singleton.mp h]
        exact .inl (List.mem_of_find?_eq_some hfound)
      · exact .inr (.inr h)
    · exact .inl h
  | responseStarted | spawnFinalizer =>
    simp only [View.book] at h
    split at h
    · rename_i hpending
      simpa only [View.mem_rows, hpending, Pending.rows] using Or.inl h
    · exact .inl h
  | join =>
    simp only [View.book] at h
    split at h
    · rename_i hpending
      refine .inl (View.mem_rows.mpr ?_)
      rw [hpending]
      split at h <;> rcases View.mem_rows.mp h with h | h | ⟨closure, hclosure, h⟩
      all_goals first | exact .inl h | cases h | (cases hclosure; exact .inr (.inl h))
    · exact .inl h
  | dropPending =>
    refine .inl (View.mem_rows.mpr ?_)
    rcases View.mem_rows.mp h with h | h | h
    · exact .inl h
    · cases h
    · exact .inr (.inr h)
  | receive =>
    simp only [View.book] at h
    refine .inl (View.mem_rows.mpr ?_)
    rcases View.mem_rows.mp h with h | h | ⟨closure, hclosure, h⟩
    · exact .inl h
    · exact .inr (.inl h)
    · simp only [Option.ite_none_left_eq_some] at hclosure
      exact .inr (.inr ⟨closure, hclosure.2, h⟩)
  | model =>
    simp only [View.book] at h
    exact .inl (by split at h <;> exact h)
  | plan | prewarmReply => cases reply <;> exact .inl h
  | _ => exact .inl h

/-- **The rows of a view are admitted in its trace.** -/
theorem mem_admissions {row : Admitted} (h : row ∈ (viewOf trace).rows) :
    row ∈ admissions trace := by
  induction trace using List.reverseRecOn with
  | nil => cases h
  | append_singleton trace entry ih =>
    rw [viewOf_append] at h
    rw [admissions, List.filterMap_append, List.mem_append]
    rcases View.mem_rows_book (show row ∈ (View.book _ _ _).rows from h) with h | h
    · exact .inl (ih h)
    · exact .inr (by simp [h])

end CodexApi.Delivery

import FmClient.Backend.ChannelsHandler

/-! What each operation of `ChannelsHandler` does to the context, one lemma for each. -/
namespace FmClient.ChannelsHandler
open Lib Handler
variable {w v : Context}

/-- What the application can hold of a map. -/
def pointers (m : Channels) : List IChannel := m.entries.map ChannelImpl.pointer

theorem mem_pointers {m : Channels} {p : IChannel} :
    p ∈ pointers m ↔ ∃ c ∈ m, c.pointer = p := List.mem_map

theorem pointer_mem_pointers {m : Channels} {c : ChannelImpl} (hc : c ∈ m) :
    c.pointer ∈ pointers m := List.mem_map_of_mem hc

@[simp] theorem map_id_pointers (m : Channels) : (pointers m).map IChannel.id = m.keys := by
  simp [pointers, KeyedList.keys, Function.comp_def]

theorem nodup_pointers (m : Channels) : (pointers m).Nodup := by
  refine List.Nodup.of_map IChannel.id ?_
  rw [map_id_pointers]
  exact m.nodup

@[simp] theorem pointers_empty : pointers .empty = [] := rfl

@[simp] theorem mem_pointers_insertNew {m : Channels} {c : ChannelImpl} {hc : c.id ∉ m.keys}
    {p : IChannel} : p ∈ pointers (m.insertNew c hc) ↔ p ∈ pointers m ∨ p = c.pointer := by
  simp [pointers, KeyedList.insertNew]

theorem mem_pointers_erase {m : Channels} {c : ChannelImpl} (hc : c ∈ m) {p : IChannel} :
    p ∈ pointers (m.erase c.id) ↔ p ∈ pointers m ∧ p ≠ c.pointer := by
  simp only [mem_pointers, KeyedList.mem_erase]
  constructor
  · rintro ⟨d, ⟨hd, hne⟩, rfl⟩
    exact ⟨⟨d, hd, rfl⟩, fun h => hne (congrArg IChannel.id h)⟩
  · rintro ⟨⟨d, hd, rfl⟩, hne⟩
    refine ⟨d, ⟨hd, fun hid => hne ?_⟩, rfl⟩
    rw [KeyedList.eq_of_key_eq hd hc hid]

theorem getChannels_apply (w : Context) : getChannels w = .ok (pointers w.channels) w := rfl

theorem lookup_apply (id : ℤ) (w : Context) :
    lookup id w = match w.channels.find id with
      | some c => .ok c w
      | none => .error (.missingChannel id) w := by
  simp only [lookup, bind_apply, get_apply]
  cases w.channels.find id <;> rfl

/-- The pointers of the named entries, or the first name that has none. -/
inductive Finds (m : Channels) : List ℤ → List IChannel → Prop where
  | nil : Finds m [] []
  | cons {c : ChannelImpl} {ids : List ℤ} {ps : List IChannel} (hc : c ∈ m) (hs : Finds m ids ps) :
      Finds m (c.id :: ids) (c.pointer :: ps)

theorem getChannelsOf_apply (ids : List ℤ) (w : Context) :
    (∃ ps, getChannelsOf ids w = .ok ps w ∧ Finds w.channels ids ps) ∨
      ∃ id ∈ ids, id ∉ w.channels.keys ∧ getChannelsOf ids w = .error (.missingChannel id) w := by
  induction ids with
  | nil => exact .inl ⟨[], rfl, .nil⟩
  | cons id ids ih =>
    simp only [getChannelsOf, bind_apply, lookup_apply]
    cases hf : w.channels.find id with
    | none => exact .inr ⟨id, by simp, KeyedList.find_eq_none.mp hf, rfl⟩
    | some c =>
      obtain ⟨hc, rfl⟩ := KeyedList.find_eq_some.mp hf
      obtain ⟨ps, hps, hfinds⟩ | ⟨j, hj, hkeys, herror⟩ := ih
      · exact .inl ⟨c.pointer :: ps, by simp [hps], .cons hc hfinds⟩
      · exact .inr ⟨j, List.mem_cons_of_mem _ hj, hkeys, by simp [herror]⟩

theorem Finds.map_id {m : Channels} {ids : List ℤ} {ps : List IChannel} (h : Finds m ids ps) :
    ps.map IChannel.id = ids := by
  induction h with
  | nil => rfl
  | cons hc hs ih => simp [ih]

theorem Finds.mem_keys {m : Channels} {ids : List ℤ} {ps : List IChannel} (h : Finds m ids ps) :
    ∀ id ∈ ids, id ∈ m.keys := by
  induction h with
  | nil => simp
  | cons hc hs ih => exact List.forall_mem_cons.mpr ⟨KeyedList.key_mem_keys hc, ih⟩

theorem Finds.mem {m : Channels} {ids : List ℤ} {ps : List IChannel} (h : Finds m ids ps)
    {c : ChannelImpl} (hc : c ∈ m) (hid : c.id ∈ ids) : c.pointer ∈ ps := by
  induction h with
  | nil => simp at hid
  | @cons d ids ps hd hs ih =>
    obtain heq | hid := List.mem_cons.mp hid
    · rw [KeyedList.eq_of_key_eq hc hd heq]
      exact List.mem_cons_self
    · exact List.mem_cons_of_mem _ (ih hid)

/-! ### Closing -/

/-- What closing the named channels leaves, and what it does on the way. -/
inductive Closes : Channels → List ℤ → Channels → List Effect → Prop where
  | nil {m : Channels} : Closes m [] m []
  | found {m n : Channels} {c : ChannelImpl} {ids : List ℤ} {es : List Effect} (hc : c ∈ m)
      (h : Closes (m.erase c.id) ids n es) :
      Closes m (c.id :: ids) n
        (.logged (closingLine c.id) :: .closed c.pointer :: .erased c.pointer :: es)
  | missing {m n : Channels} {id : ℤ} {ids : List ℤ} {es : List Effect} (hid : id ∉ m.keys)
      (h : Closes m ids n es) :
      Closes m (id :: ids) n (.logged (notExistingLine id) :: es)

theorem erase_apply {c : ChannelImpl} (hc : c ∈ w.channels) :
    erase c.id w = .ok () ((w.withChannels (w.channels.erase c.id)).emit
      [.erased c.pointer]) := by
  have hf : w.channels.find c.id = some c := KeyedList.find_eq_some.mpr ⟨hc, rfl⟩
  simp [erase, bind_apply, hf]

theorem closeChannels_apply (ids : List ℤ) (w : Context) :
    ∃ m es, Closes w.channels ids m es ∧
      closeChannels ids w = .ok () ((w.withChannels m).emit es) := by
  induction ids generalizing w with
  | nil => exact ⟨_, _, .nil, by simp [closeChannels]⟩
  | cons id ids ih =>
    cases hf : w.channels.find id with
    | none =>
      obtain ⟨m, es, hcloses, happly⟩ := ih (w.emit [.logged (notExistingLine id)])
      refine ⟨m, _, .missing (KeyedList.find_eq_none.mp hf) hcloses, ?_⟩
      simp only [closeChannels, bind_apply, get_apply, hf, log_apply, happly]
      simp
    | some c =>
      obtain ⟨hc, rfl⟩ := KeyedList.find_eq_some.mp hf
      let u := (w.withChannels (w.channels.erase c.id)).emit
        [.logged (closingLine c.id), .closed c.pointer, .erased c.pointer]
      obtain ⟨m, es, hcloses, happly⟩ := ih u
      refine ⟨m, _, .found hc hcloses, ?_⟩
      have herase := erase_apply (w := w.emit [.logged (closingLine c.id), .closed c.pointer]) hc
      simp only [closeChannels, close, bind_apply, get_apply, hf, log_apply, emit_apply,
        Context.emit_emit, List.singleton_append, herase]
      simpa [u] using happly

theorem Closes.mem_iff {m n : Channels} {ids : List ℤ} {es : List Effect} (h : Closes m ids n es)
    {c : ChannelImpl} : c ∈ n ↔ c ∈ m ∧ c.id ∉ ids := by
  induction h with
  | nil => simp
  | found hd h ih => simp [ih, and_assoc, not_or]
  | @missing m n id ids es hid h ih =>
    rw [ih, List.mem_cons, not_or]
    refine ⟨fun ⟨hc, hids⟩ => ⟨hc, ?_, hids⟩, fun ⟨hc, _, hids⟩ => ⟨hc, hids⟩⟩
    intro heq
    subst heq
    exact hid (KeyedList.key_mem_keys hc)

theorem Closes.erased {m n : Channels} {ids : List ℤ} {es : List Effect} (h : Closes m ids n es)
    {p : IChannel} (hp : .erased p ∈ es) : ∃ c ∈ m, c.id ∈ ids ∧ c.pointer = p := by
  induction h with
  | nil => simp at hp
  | @found m n c ids es hc h ih =>
    have hmem : p = c.pointer ∨ .erased p ∈ es := by simpa using hp
    obtain rfl | hp := hmem
    · exact ⟨c, hc, List.mem_cons_self, rfl⟩
    · obtain ⟨d, hd, hid, rfl⟩ := ih hp
      exact ⟨d, (KeyedList.mem_erase.mp hd).1, List.mem_cons_of_mem _ hid, rfl⟩
  | missing hid h ih =>
    obtain ⟨d, hd, hmem, rfl⟩ := ih (by simpa using hp)
    exact ⟨d, hd, List.mem_cons_of_mem _ hmem, rfl⟩

def closeAllEffects (m : Channels) : List Effect :=
  (m.entries.flatMap fun c => [.logged (closingLine c.id), .closed c.pointer]) ++
    m.entries.map fun c => .erased c.pointer

theorem closeEach_apply (cs : List ChannelImpl) (w : Context) :
    closeEach cs w = .ok () (w.emit
      (cs.flatMap fun c => [.logged (closingLine c.id), .closed c.pointer])) := by
  induction cs generalizing w with
  | nil => simp [closeEach]
  | cons c cs ih => simp [closeEach, close, bind_apply, ih]

theorem closeAllChannels_apply (w : Context) :
    closeAllChannels w = .ok () ((w.withChannels .empty).emit
      (closeAllEffects w.channels)) := by
  simp [closeAllChannels, clear, bind_apply, closeEach_apply, closeAllEffects]

/-! ### Ownership -/

def ownedMap (m : Channels) (id : ℤ) (owned : Bool) : Channels :=
  m.mapValues (ownedAt id owned) (ownedAt_id id owned)

theorem mem_ownedMap {m : Channels} {id : ℤ} {owned : Bool} {c : ChannelImpl} :
    c ∈ ownedMap m id owned ↔ ∃ d ∈ m, ownedAt id owned d = c := KeyedList.mem_mapValues

@[simp] theorem pointers_ownedMap (m : Channels) (id : ℤ) (owned : Bool) :
    pointers (ownedMap m id owned) = pointers m := by
  simp only [pointers, ownedMap, KeyedList.mapValues, List.map_map]
  refine List.map_congr_left fun c _ => ?_
  simp only [Function.comp_apply, ownedAt]
  split <;> rfl

theorem setOwned_apply (id : ℤ) (owned : Bool) (w : Context) :
    setOwned id owned w =
      if id ∈ w.channels.keys then .ok () (w.withChannels (ownedMap w.channels id owned))
      else .error (.missingChannel id) w := by
  simp only [setOwned, bind_apply, lookup_apply]
  cases hf : w.channels.find id with
  | none => simp [KeyedList.find_eq_none.mp hf]
  | some c =>
    obtain ⟨hc, rfl⟩ := KeyedList.find_eq_some.mp hf
    simp [KeyedList.key_mem_keys hc, ownedMap]

def ownedMapAll (m : Channels) (ids : List ℤ) : Channels :=
  ids.foldl (fun m id => ownedMap m id true) m

@[simp] theorem keys_ownedMap (m : Channels) (id : ℤ) (owned : Bool) :
    (ownedMap m id owned).keys = m.keys := KeyedList.keys_mapValues

@[simp] theorem keys_ownedMapAll (m : Channels) (ids : List ℤ) :
    (ownedMapAll m ids).keys = m.keys := by
  induction ids generalizing m with
  | nil => rfl
  | cons id ids ih => simpa [ownedMapAll] using ih (ownedMap m id true)

@[simp] theorem pointers_ownedMapAll (m : Channels) (ids : List ℤ) :
    pointers (ownedMapAll m ids) = pointers m := by
  induction ids generalizing m with
  | nil => rfl
  | cons id ids ih => simpa [ownedMapAll] using ih (ownedMap m id true)

theorem setOwnedAll_apply (ids : List ℤ) (w : Context) :
    (∀ id ∈ ids, id ∈ w.channels.keys) ∧
      setOwnedAll ids w = .ok () ((w.withChannels (ownedMapAll w.channels ids)).emit
        (ids.map fun id => .logged (ownedLine id))) ∨
    ∃ pre id post, ids = pre ++ id :: post ∧ id ∉ w.channels.keys ∧
      setOwnedAll ids w = .error (.missingChannel id)
        ((w.withChannels (ownedMapAll w.channels pre)).emit
          ((pre ++ [id]).map fun id => .logged (ownedLine id))) := by
  induction ids generalizing w with
  | nil => exact .inl ⟨by simp, by simp [setOwnedAll, ownedMapAll]⟩
  | cons id ids ih =>
    simp only [setOwnedAll, bind_apply, log_apply, setOwned_apply, Context.emit_channels]
    by_cases hid : id ∈ w.channels.keys
    · simp only [hid, if_true]
      obtain ⟨hall, happly⟩ | ⟨pre, j, post, rfl, hkeys, happly⟩ :=
        ih ((w.withChannels (ownedMap w.channels id true)).emit [.logged (ownedLine id)])
      · refine .inl ⟨?_, ?_⟩
        · simpa [hid] using hall
        · simpa [ownedMapAll] using happly
      · refine .inr ⟨id :: pre, j, post, rfl, by simpa using hkeys, ?_⟩
        simpa [ownedMapAll] using happly
    · exact .inr ⟨[], id, ids, rfl, hid, by simp [hid, ownedMapAll]⟩

/-! ### Validation -/

def supported (r : ChannelResponse) : Bool :=
  match r.protocol, r.security with
  | .udp, .plainText | .tcp, .plainText | .tcp, .tls => true
  | _, _ => false

theorem buildSocket_apply (r : ChannelResponse) (w : Context) :
    supported r = true ∧ (∃ socket, buildSocket r w = .ok socket w) ∨
      supported r = false ∧ ∃ f, (f = .noReturn ∨ ∃ what, f = .thrown what) ∧
        buildSocket r w = .error f w := by
  unfold supported buildSocket
  cases r.protocol <;> cases r.security <;> simp

/-- The entry that `emplace` returns: the one already there, or a new one. -/
inductive Emplacement (w : Context) (id : ℤ) : ChannelImpl → Context → Prop where
  | existing {c : ChannelImpl} (hc : c ∈ w.channels) (hid : c.id = id) : Emplacement w id c w
  | new (socket : SocketKind) (hid : id ∉ w.channels.keys) :
      Emplacement w id ⟨id, w.constructed, socket, false⟩
        ((w.insertNew ⟨id, w.constructed, socket, false⟩ hid).emit [.inserted ⟨id, w.constructed⟩])

theorem emplace_apply (id : ℤ) (socket : SocketKind) (w : Context) :
    ∃ c v, Emplacement w id c v ∧ emplace id socket w = .ok c.pointer v := by
  by_cases hid : id ∈ w.channels.keys
  · obtain ⟨c, hc, rfl⟩ := KeyedList.mem_keys.mp hid
    have hf : w.channels.find c.id = some c := KeyedList.find_eq_some.mpr ⟨hc, rfl⟩
    exact ⟨c, w, .existing hc rfl, by simp [emplace, bind_apply, map_apply, hid, lookup_apply, hf]⟩
  · exact ⟨_, _, .new socket hid, by
      simp [emplace, bind_apply, map_apply, hid, ChannelImpl.pointer]⟩

theorem Emplacement.mem {w v : Context} {id : ℤ} {c : ChannelImpl} (h : Emplacement w id c v) :
    c ∈ v.channels ∧ c.id = id := by
  cases h with
  | existing hc hid => exact ⟨hc, hid⟩
  | new socket hid => simp

/-- One channel of a batch: what came of its `open`, and what the client makes of it. -/
inductive Validation (w : Context) (r : ChannelResponse) :
    Except String Bool → EStateM.Result Fault Context (List IChannel) → Prop where
  | unsupported {result : Except String Bool} {f : Fault} (hr : supported r = false)
      (hf : f = .noReturn ∨ ∃ what, f = .thrown what) :
      Validation w r result (.error f (w.emit [.logged (openingLine r.id)]))
  | failed {what : String} {c : ChannelImpl} {v : Context} (hr : supported r = true)
      (he : Emplacement (w.emit [.logged (openingLine r.id)]) r.id c v) :
      Validation w r (.error what) (.error (.thrown what) v)
  | accepted {c : ChannelImpl} {v : Context} (hr : supported r = true)
      (he : Emplacement (w.emit [.logged (openingLine r.id)]) r.id c v) :
      Validation w r (.ok true) (.ok [c.pointer]
        (v.emit [.opened c.pointer true, .logged (validatedLine r.id)]))
  | rejected {c : ChannelImpl} {v : Context} (hr : supported r = true)
      (he : Emplacement (w.emit [.logged (openingLine r.id)]) r.id c v) :
      Validation w r (.ok false) (.ok [] ((v.withChannels (v.channels.erase r.id)).emit
        [.opened c.pointer false, .logged (rejectedLine r.id), .erased c.pointer]))

theorem validateChannel_apply (r : ChannelResponse) (result : Except String Bool) (w : Context) :
    Validation w r result (validateChannel r result w) := by
  simp only [validateChannel, bind_apply, log_apply]
  obtain ⟨hr, socket, hs⟩ | ⟨hr, f, hf, hs⟩ :=
    buildSocket_apply r (w.emit [.logged (openingLine r.id)])
  · obtain ⟨c, v, he, happly⟩ := emplace_apply r.id socket (w.emit [.logged (openingLine r.id)])
    simp only [hs, happly]
    obtain ⟨hc, hid⟩ := he.mem
    match result with
    | .error what => exact .failed hr he
    | .ok true =>
      simpa [«open», outcome, bind_apply, map_apply] using Validation.accepted hr he
    | .ok false =>
      have herase := erase_apply
        (w := v.emit [.opened c.pointer false, .logged (rejectedLine r.id)]) hc
      rw [hid] at herase
      have hrej := Validation.rejected hr he
      simpa [«open», outcome, bind_apply, map_apply, herase] using hrej
  · simpa [hs] using Validation.unsupported hr hf

/-- A batch: its channels in turn, up to the first that fails. -/
inductive Validations : Context → List (ChannelResponse × Except String Bool) →
    EStateM.Result Fault Context (List IChannel) → Prop where
  | nil {w : Context} : Validations w [] (.ok [] w)
  | cons {w v u : Context} {r : ChannelResponse} {result : Except String Bool}
      {rest : List (ChannelResponse × Except String Bool)} {ps qs : List IChannel}
      (hr : Validation w r result (.ok ps v)) (hs : Validations v rest (.ok qs u)) :
      Validations w ((r, result) :: rest) (.ok (ps ++ qs) u)
  | stop {w v : Context} {r : ChannelResponse} {result : Except String Bool}
      {rest : List (ChannelResponse × Except String Bool)} {f : Fault}
      (hr : Validation w r result (.error f v)) :
      Validations w ((r, result) :: rest) (.error f v)
  | later {w v u : Context} {r : ChannelResponse} {result : Except String Bool}
      {rest : List (ChannelResponse × Except String Bool)} {ps : List IChannel} {f : Fault}
      (hr : Validation w r result (.ok ps v)) (hs : Validations v rest (.error f u)) :
      Validations w ((r, result) :: rest) (.error f u)

theorem validateChannels_apply (batch : List (ChannelResponse × Except String Bool))
    (w : Context) : Validations w batch (validateChannels batch w) := by
  induction batch generalizing w with
  | nil => exact .nil
  | cons x rest ih =>
    obtain ⟨r, result⟩ := x
    simp only [validateChannels, bind_apply]
    have hr := validateChannel_apply r result w
    cases hv : validateChannel r result w with
    | error f v =>
      rw [hv] at hr
      exact .stop hr
    | ok ps v =>
      rw [hv] at hr
      have hs := ih v
      cases hvs : validateChannels rest v with
      | error f u =>
        rw [hvs] at hs
        simpa [hvs] using Validations.later hr hs
      | ok qs u =>
        rw [hvs] at hs
        simpa [hvs] using Validations.cons hr hs

theorem getIds_apply (ps : List IChannel) (w : Context) :
    (∀ p ∈ ps, p ∈ pointers w.channels) ∧ getIds ps w = .ok (ps.map IChannel.id) w ∨
      ∃ p ∈ ps, p ∉ pointers w.channels ∧ getIds ps w = .error (.danglingChannel p) w := by
  induction ps with
  | nil => exact .inl ⟨by simp, rfl⟩
  | cons p ps ih =>
    simp only [getIds, bind_apply, getChannels_apply]
    by_cases hp : p ∈ pointers w.channels
    · obtain ⟨hps, happly⟩ | ⟨q, hq, hnot, happly⟩ := ih
      · exact .inl ⟨List.forall_mem_cons.mpr ⟨hp, hps⟩, by simp [hp, bind_apply, happly]⟩
      · exact .inr ⟨q, List.mem_cons_of_mem _ hq, hnot, by simp [hp, bind_apply, happly]⟩
    · exact .inr ⟨p, List.mem_cons_self, hp, by simp [hp]⟩

theorem Validations.fault {batch : List (ChannelResponse × Except String Bool)} {f : Fault}
    (h : Validations w batch (.error f v)) : f = .noReturn ∨ ∃ what, f = .thrown what := by
  have hone {r : ChannelResponse} {result : Except String Bool} {w v : Context}
      (hr : Validation w r result (.error f v)) : f = .noReturn ∨ ∃ what, f = .thrown what := by
    cases hr with
    | unsupported hr hf => exact hf
    | failed hr he => exact .inr ⟨_, rfl⟩
  induction batch generalizing w with
  | nil => cases h
  | cons x rest ih =>
    cases h with
    | stop hr => exact hone hr
    | later hr hs => exact ih hs

theorem Validation.ids_opened {r : ChannelResponse} {result : Except String Bool}
    {ps : List IChannel} (h : Validation w r result (.ok ps v)) :
    ps.map IChannel.id = openedIds [(r, result)] := by
  cases h with
  | accepted hr he => simp [openedIds, he.mem.2]
  | rejected hr he => simp [openedIds]

theorem Validations.ids_opened {batch : List (ChannelResponse × Except String Bool)}
    {ps : List IChannel} (h : Validations w batch (.ok ps v)) :
    ps.map IChannel.id = openedIds batch := by
  induction batch generalizing w ps with
  | nil =>
    cases h
    rfl
  | cons x rest ih =>
    cases h with
    | cons hr hs =>
      rw [List.map_append, hr.ids_opened, ih hs]
      exact List.filterMap_append.symm

theorem Emplacement.mem_keys {w v : Context} {id : ℤ} {c : ChannelImpl}
    (h : Emplacement w id c v) {j : ℤ} : j ∈ v.channels.keys ↔ j ∈ w.channels.keys ∨ j = id := by
  cases h with
  | existing hc hid =>
    subst hid
    exact ⟨.inl, fun h => h.elim (fun h => h) fun h => h ▸ KeyedList.key_mem_keys hc⟩
  | new socket hid => simp

theorem Validation.mem_keys {r : ChannelResponse} {accepted : Bool} {v : Context}
    {ps : List IChannel} (h : Validation w r (.ok accepted) (.ok ps v)) {j : ℤ} :
    j ∈ v.channels.keys ↔ if accepted then j ∈ w.channels.keys ∨ j = r.id
      else j ∈ w.channels.keys ∧ j ≠ r.id := by
  cases h with
  | accepted hr he => simpa using he.mem_keys
  | rejected hr he =>
    simp only [Context.emit_channels, Context.withChannels_channels, KeyedList.mem_keys_erase,
      he.mem_keys]
    simp [or_and_right]

theorem Validation.pointers_mem {r : ChannelResponse} {result : Except String Bool} {v : Context}
    {ps : List IChannel} (h : Validation w r result (.ok ps v)) :
    ∀ p ∈ ps, p ∈ pointers v.channels := by
  cases h with
  | accepted hr he => simpa using pointer_mem_pointers he.mem.1
  | rejected hr he => simp

/-- The entries after a validation: those before it, and new ones that are not owned. -/
def Extends (w v : Context) : Prop :=
  w.constructed ≤ v.constructed ∧
    ∀ c ∈ v.channels, c ∈ w.channels ∨ c.owned = false ∧ w.constructed ≤ c.address

theorem Extends.trans {w v u : Context} (h : Extends w v) (h' : Extends v u) : Extends w u := by
  refine ⟨h.1.trans h'.1, fun c hc => ?_⟩
  obtain hc | ⟨howned, hnew⟩ := h'.2 c hc
  · exact h.2 c hc
  · exact .inr ⟨howned, h.1.trans hnew⟩

theorem Emplacement.extends {w v : Context} {id : ℤ} {c : ChannelImpl}
    (h : Emplacement w id c v) : Extends w v := by
  cases h with
  | existing hc hid => exact ⟨le_rfl, fun c hc => .inl hc⟩
  | new socket hid =>
    refine ⟨Nat.le_succ _, fun c hc => ?_⟩
    have hmem : c ∈ w.channels ∨ c = ⟨id, w.constructed, socket, false⟩ := by simpa using hc
    obtain hc | rfl := hmem
    · exact .inl hc
    · exact .inr ⟨rfl, le_rfl⟩

theorem Validation.extends {r : ChannelResponse} {result : Except String Bool} {v : Context}
    {ps : List IChannel} (h : Validation w r result (.ok ps v)) : Extends w v := by
  cases h with
  | accepted hr he => exact he.extends
  | rejected hr he =>
    exact ⟨he.extends.1, fun c hc => he.extends.2 c (KeyedList.mem_erase.mp hc).1⟩

theorem Validations.extends {batch : List (ChannelResponse × Except String Bool)}
    {ps : List IChannel} (h : Validations w batch (.ok ps v)) : Extends w v := by
  induction batch generalizing w ps with
  | nil =>
    cases h
    exact ⟨le_rfl, fun c hc => .inl hc⟩
  | cons x rest ih =>
    cases h with
    | cons hr hs => exact hr.extends.trans (ih hs)

end FmClient.ChannelsHandler

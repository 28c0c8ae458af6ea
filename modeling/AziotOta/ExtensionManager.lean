import Mathlib.Data.List.Nodup
import AziotOta.Machine

/-!
# The content-handler cache of the extension manager

`ExtensionManager::_contentHandlers` maps an update type to the `ContentHandler` cached for it;
Load creates and caches one, Set replaces an entry, and `UnloadAllUpdateContentHandlers`
deletes every cached handler. The heap is the list of handler objects allocated and not
deleted. Load's cache-hit guard tests a result code that is still a failure, so every Load of
a supported type creates a handler, and one for a cached type is held by no entry. Over every
sequence of calls the map holds no deleted or shared handler, so UnloadAll frees each once.
-/

namespace AziotOta

/-! ## The model -/

/-- The content-handler classes of this port. -/
inductive HandlerClass where
  | stepsHandler
  | mcubUpdateHandler
  deriving DecidableEq, Repr

/-- A `ContentHandler *`: the address of a handler object. -/
abbrev HandlerPtr := Nat

/-- The class `LoadUpdateContentHandlerExtension` creates a handler of for an update type,
with `COMPONENT_AZIOT_OTA_PAL_MCUBOOT` set; `none` for an unsupported type. -/
def handlerClassFor (updateType : String) : Option HandlerClass :=
  if updateType = "microsoft/steps:1" ∨ updateType = "microsoft/update-manifest" ∨
      updateType = "microsoft/update-manifest:4" ∨ updateType = "microsoft/update-manifest:5" then
    some .stepsHandler
  else if updateType = "nuvoton/mcubupdate:1" then some .mcubUpdateHandler
  else none

/-- Modelled from the spec: the extended result codes the cache sets, named as in
`aduc/result.h` (not in this repository). -/
inductive ExtendedResultCode where
  | none
  | extensionCreateFailureInvalidArg
  | updateContentHandlerCreateFailureCreate
  | unsupportedUpdateManifestVersion
  deriving DecidableEq, Repr

/-- `ADUC_Result`. -/
structure AducResult where
  resultCode : AducResultCode
  extendedResultCode : ExtendedResultCode
  deriving DecidableEq, Repr

/-- `std::unordered_map<std::string, ContentHandler *>`, as its entries; a key occurs once. -/
structure HandlerMap where
  entries : List (String × HandlerPtr)
  nodup : (entries.map Prod.fst).Nodup

namespace HandlerMap

def empty : HandlerMap := ⟨[], List.nodup_nil⟩

/-- `count(key) > 0` and `at(key)`. -/
def find? (hm : HandlerMap) (key : String) : Option HandlerPtr := hm.entries.lookup key

/-- `emplace(key, value)`, which leaves the map alone when the key is present. -/
def emplace (hm : HandlerMap) (key : String) (value : HandlerPtr) : HandlerMap :=
  if h : key ∈ hm.entries.map Prod.fst then hm
  else ⟨hm.entries ++ [(key, value)], by
    rw [List.map_append]
    exact List.nodup_append.mpr ⟨hm.nodup, List.nodup_singleton key,
      List.disjoint_singleton.mpr h⟩⟩

/-- `erase(key)`. -/
def erase (hm : HandlerMap) (key : String) : HandlerMap :=
  ⟨hm.entries.filter (·.1 != key), hm.nodup.sublist ((List.filter_sublist _).map _)⟩

/-- The handlers the map holds. -/
def values (hm : HandlerMap) : List HandlerPtr := hm.entries.map Prod.snd

end HandlerMap

/-- The extension manager's map and the heap of handler objects: the handlers allocated and
not deleted, with their classes, and the address the next `new` returns. -/
structure ExtManager where
  contentHandlers : HandlerMap
  live : List (HandlerPtr × HandlerClass)
  next : HandlerPtr

namespace ExtManager

/-- Before the first call: an empty map and no handler. -/
def init : ExtManager := ⟨.empty, [], 0⟩

/-- `new` of a handler of class `cls`. -/
def new (s : ExtManager) (cls : HandlerClass) : HandlerPtr × ExtManager :=
  (s.next, { s with live := s.live ++ [(s.next, cls)], next := s.next + 1 })

/-- The addresses of the live handlers. -/
def liveAddrs (s : ExtManager) : List HandlerPtr := s.live.map Prod.fst

/-- `delete p`; `none` when `p` is not a live handler, a double free. -/
def delete (s : ExtManager) (p : HandlerPtr) : Option ExtManager :=
  if p ∈ s.liveAddrs then some { s with live := s.live.filter (·.1 != p) } else none

end ExtManager

/-- `ExtensionManager::LoadUpdateContentHandlerExtension(updateType, &handler)`: the result and
what it leaves in `handler`. -/
def loadUpdateContentHandlerExtension (updateType : String) (s : ExtManager) :
    (AducResult × Option HandlerPtr) × ExtManager :=
  let result : AducResult := ⟨.failure, .none⟩
  -- Try to find cached handler.
  let handler := s.contentHandlers.find? updateType
  if isAducResultCodeSuccess result.resultCode && handler.isSome then ((result, handler), s)
  else
    let (handler, s) := match handlerClassFor updateType with
      | some cls => let (h, s) := s.new cls; (some h, s)
      | none => (handler, s)
    match handler with
    | none => ((⟨.failure, .updateContentHandlerCreateFailureCreate⟩, none), s)
    | some h =>
      ((⟨.generalSuccess, .none⟩, some h),
        { s with contentHandlers := s.contentHandlers.emplace updateType h })

/-- `ExtensionManager::SetUpdateContentHandlerExtension(updateType, handler)`. -/
def setUpdateContentHandlerExtension (updateType : String) (handler : Option HandlerPtr)
    (s : ExtManager) : AducResult × ExtManager :=
  match handler with
  | none => (⟨.failure, .extensionCreateFailureInvalidArg⟩, s)
  | some h =>
    (⟨.generalSuccess, .none⟩,
      { s with contentHandlers := (s.contentHandlers.erase updateType).emplace updateType h })

/-- `ExtensionManager::UnloadAllUpdateContentHandlers`: delete the handler of every entry,
then clear the map; `none` on a double free. -/
def unloadAllUpdateContentHandlers (s : ExtManager) : Option ExtManager := do
  let s' ← s.contentHandlers.entries.foldlM (fun s e => s.delete e.2) s
  return { s' with contentHandlers := .empty }

/-- `UPDATE_MANIFEST_DEFAULT_HANDLER`. -/
def updateManifestDefaultHandler : String := "microsoft/update-manifest"

/-- `GetUpdateManifestHandler`: from manifest version 4 on, the handler of
`microsoft/update-manifest:<version>`, or else of the default type; with the result it writes
when it returns `nullptr`. -/
def getUpdateManifestHandler (updateManifestVersion : Int) (s : ExtManager) :
    (AducResult × Option HandlerPtr) × ExtManager :=
  if updateManifestVersion ≥ 4 then
    let ((loadResult, handler), s) := loadUpdateContentHandlerExtension
      ("microsoft/update-manifest:" ++ toString updateManifestVersion) s
    let ((loadResult, handler), s) :=
      if isAducResultCodeFailure loadResult.resultCode then
        loadUpdateContentHandlerExtension updateManifestDefaultHandler s
      else ((loadResult, handler), s)
    if isAducResultCodeFailure loadResult.resultCode then ((loadResult, none), s)
    else ((loadResult, handler), s)
  else ((⟨.failure, .unsupportedUpdateManifestVersion⟩, none), s)

/-- What a Load does: the guard never fires, so a supported type always gets a new handler,
which is cached only if the type was not; an unsupported type gets the handler cached for
it, if any. -/
theorem loadUpdateContentHandlerExtension_eq (updateType : String) (s : ExtManager) :
    loadUpdateContentHandlerExtension updateType s =
      match handlerClassFor updateType with
      | some cls => ((⟨.generalSuccess, .none⟩, some s.next),
          { (s.new cls).2 with contentHandlers := s.contentHandlers.emplace updateType s.next })
      | none => match s.contentHandlers.find? updateType with
        | none => ((⟨.failure, .updateContentHandlerCreateFailureCreate⟩, none), s)
        | some h => ((⟨.generalSuccess, .none⟩, some h),
            { s with contentHandlers := s.contentHandlers.emplace updateType h }) := by
  unfold loadUpdateContentHandlerExtension
  cases handlerClassFor updateType <;> cases s.contentHandlers.find? updateType <;> rfl

/-- Loading `nuvoton/mcubupdate:1` twice from the start: the first Load caches handler 0; the
second creates handler 1 and returns it, the map keeps handler 0, and handler 1 is live and
held by no entry. -/
theorem load_twice_leaks_handler :
    (loadUpdateContentHandlerExtension "nuvoton/mcubupdate:1" .init).2.contentHandlers.find?
        "nuvoton/mcubupdate:1" = some 0 ∧
      (loadUpdateContentHandlerExtension "nuvoton/mcubupdate:1"
        (loadUpdateContentHandlerExtension "nuvoton/mcubupdate:1" .init).2).1 =
        (⟨.generalSuccess, .none⟩, some 1) ∧
      (loadUpdateContentHandlerExtension "nuvoton/mcubupdate:1"
        (loadUpdateContentHandlerExtension "nuvoton/mcubupdate:1" .init).2).2.contentHandlers.find?
        "nuvoton/mcubupdate:1" = some 0 ∧
      1 ∈ (loadUpdateContentHandlerExtension "nuvoton/mcubupdate:1"
        (loadUpdateContentHandlerExtension "nuvoton/mcubupdate:1" .init).2).2.liveAddrs ∧
      1 ∉ (loadUpdateContentHandlerExtension "nuvoton/mcubupdate:1"
        (loadUpdateContentHandlerExtension "nuvoton/mcubupdate:1" .init).2).2.contentHandlers.values := by
  decide

/-! ## The map and the heap -/

namespace HandlerMap

variable (hm : HandlerMap) (key : String) (value : HandlerPtr)

theorem emplace_of_mem (h : key ∈ hm.entries.map Prod.fst) : hm.emplace key value = hm := by
  simp [emplace, h]

theorem values_emplace_of_not_mem (h : key ∉ hm.entries.map Prod.fst) :
    (hm.emplace key value).values = hm.values ++ [value] := by
  simp [emplace, h, values]

theorem values_erase_sublist : (hm.erase key).values.Sublist hm.values :=
  (List.filter_sublist _).map _

theorem mem_keys_of_find? {h : HandlerPtr} (hf : hm.find? key = some h) :
    key ∈ hm.entries.map Prod.fst ∧ h ∈ hm.values := by
  unfold find? at hf
  unfold values
  generalize hm.entries = es at hf ⊢
  induction es with
  | nil => simp at hf
  | cons e es ih =>
    obtain ⟨k, v⟩ := e
    by_cases he : key = k
    · subst he
      simp only [List.lookup_cons_self, Option.some.injEq] at hf
      simp [hf]
    · simp only [List.lookup_cons, beq_false_of_ne he] at hf
      simp [ih hf]

end HandlerMap

namespace ExtManager

/-- The heap and the map are well formed: the live handlers have distinct addresses below the
next one, and the map holds distinct live handlers. -/
structure Wf (s : ExtManager) : Prop where
  fresh : ∀ p ∈ s.liveAddrs, p < s.next
  liveNodup : s.liveAddrs.Nodup
  mappedLive : ∀ p ∈ s.contentHandlers.values, p ∈ s.liveAddrs
  valuesNodup : s.contentHandlers.values.Nodup

theorem wf_init : init.Wf :=
  ⟨by simp [init, liveAddrs], List.nodup_nil, by simp [init, HandlerMap.empty, HandlerMap.values],
    List.nodup_nil⟩

variable {s : ExtManager} (hs : s.Wf)
include hs

theorem next_not_mem : s.next ∉ s.liveAddrs := fun h => Nat.lt_irrefl _ (hs.fresh _ h)

/-- `new` keeps the heap well formed and returns an address that was not live. -/
theorem Wf.new (cls : HandlerClass) : (s.new cls).2.Wf := by
  have hnot := next_not_mem hs
  refine ⟨fun p hp => ?_, ?_, fun p hp => ?_, hs.valuesNodup⟩
  · simp only [ExtManager.new, liveAddrs, List.map_append, List.mem_append, List.map_cons,
      List.map_nil, List.mem_singleton] at hp ⊢
    rcases hp with hp | rfl
    · exact Nat.lt_succ_of_lt (hs.fresh p hp)
    · exact Nat.lt_succ_self _
  · simp only [ExtManager.new, liveAddrs, List.map_append, List.map_cons, List.map_nil]
    exact List.nodup_append.mpr ⟨hs.liveNodup, List.nodup_singleton _,
      List.disjoint_singleton.mpr hnot⟩
  · simp only [ExtManager.new, liveAddrs, List.map_append, List.mem_append]
    exact .inl (hs.mappedLive p hp)

/-- Storing a live handler the map does not hold keeps the state well formed. -/
theorem Wf.emplace {key : String} {p : HandlerPtr} (hp : p ∈ s.liveAddrs)
    (hnot : p ∉ s.contentHandlers.values) :
    { s with contentHandlers := s.contentHandlers.emplace key p }.Wf := by
  by_cases hk : key ∈ s.contentHandlers.entries.map Prod.fst
  · rw [HandlerMap.emplace_of_mem _ _ _ hk]
    exact hs
  refine ⟨hs.fresh, hs.liveNodup, fun q hq => ?_, ?_⟩
  · rw [HandlerMap.values_emplace_of_not_mem _ _ _ hk, List.mem_append,
      List.mem_singleton] at hq
    rcases hq with hq | rfl
    · exact hs.mappedLive q hq
    · exact hp
  · rw [HandlerMap.values_emplace_of_not_mem _ _ _ hk]
    exact List.nodup_append.mpr ⟨hs.valuesNodup, List.nodup_singleton _,
      List.disjoint_singleton.mpr hnot⟩

theorem Wf.erase (key : String) : { s with contentHandlers := s.contentHandlers.erase key }.Wf :=
  ⟨hs.fresh, hs.liveNodup,
    fun p hp => hs.mappedLive p ((HandlerMap.values_erase_sublist _ _).subset hp),
    hs.valuesNodup.sublist (HandlerMap.values_erase_sublist _ _)⟩

/-- A Load keeps the state well formed: a new handler is live and in no entry, and a cached
one is emplaced on the key it is already under. -/
theorem Wf.load (updateType : String) : (loadUpdateContentHandlerExtension updateType s).2.Wf := by
  rw [loadUpdateContentHandlerExtension_eq]
  cases handlerClassFor updateType with
  | some cls =>
    exact (hs.new cls).emplace (by simp [ExtManager.new, liveAddrs])
      fun hp => next_not_mem hs (hs.mappedLive _ hp)
  | none =>
    cases hf : s.contentHandlers.find? updateType with
    | none => exact hs
    | some h =>
      show { s with contentHandlers := s.contentHandlers.emplace updateType h }.Wf
      rw [HandlerMap.emplace_of_mem _ _ _ (s.contentHandlers.mem_keys_of_find? _ hf).1]
      exact hs

/-- A Set of a handler just created keeps the state well formed. -/
theorem Wf.setNew (updateType : String) (cls : HandlerClass) :
    (setUpdateContentHandlerExtension updateType (some (s.new cls).1) (s.new cls).2).2.Wf :=
  ((hs.new cls).erase updateType).emplace (by simp [ExtManager.new, liveAddrs])
    fun hp => next_not_mem hs (hs.mappedLive _ ((HandlerMap.values_erase_sublist _ _).subset hp))

end ExtManager

/-- Deleting the handlers of a list of distinct live addresses, one after another, never
fails, and frees exactly those. -/
theorem foldlM_delete (es : List (String × HandlerPtr)) (s : ExtManager)
    (hnd : (es.map Prod.snd).Nodup) (hl : ∀ p ∈ es.map Prod.snd, p ∈ s.liveAddrs) :
    es.foldlM (fun s e => s.delete e.2) s =
      some { s with live := s.live.filter (fun o => o.1 ∉ es.map Prod.snd) } := by
  induction es generalizing s with
  | nil => simp
  | cons e es ih =>
    rw [List.map_cons, List.nodup_cons] at hnd
    have hlive : e.2 ∈ s.liveAddrs := hl _ (List.mem_cons_self _ _)
    have hrest : ∀ p ∈ es.map Prod.snd,
        p ∈ ({ s with live := s.live.filter (·.1 != e.2) } : ExtManager).liveAddrs := by
      intro p hp
      have hne : p ≠ e.2 := fun h => hnd.1 (h ▸ hp)
      obtain ⟨o, ho, rfl⟩ := List.mem_map.mp (hl p (List.mem_cons_of_mem _ hp))
      exact List.mem_map_of_mem _ (List.mem_filter.mpr ⟨ho, by simpa using hne⟩)
    rw [List.foldlM_cons, ExtManager.delete, if_pos hlive]
    simp only [Option.bind_eq_bind, Option.some_bind, ih _ hnd.2 hrest, List.filter_filter,
      List.map_cons, List.mem_cons, not_or]
    congr 3
    funext o
    by_cases h : o.1 = e.2 <;> simp [h]

/-- `UnloadAll` from a well-formed state deletes each handler of the map once and empties it. -/
theorem unloadAllUpdateContentHandlers_eq {s : ExtManager} (hs : s.Wf) :
    unloadAllUpdateContentHandlers s = some ⟨.empty,
      s.live.filter (fun o => o.1 ∉ s.contentHandlers.values), s.next⟩ := by
  simp only [unloadAllUpdateContentHandlers,
    foldlM_delete _ _ hs.valuesNodup hs.mappedLive, Option.bind_eq_bind, Option.some_bind]
  rfl

theorem ExtManager.Wf.unloadAll {s s' : ExtManager} (hs : s.Wf)
    (h : unloadAllUpdateContentHandlers s = some s') : s'.Wf := by
  rw [unloadAllUpdateContentHandlers_eq hs, Option.some.injEq] at h
  subst h
  have hsub : (s.live.filter (fun o => o.1 ∉ s.contentHandlers.values)).map Prod.fst
      |>.Sublist s.liveAddrs := (List.filter_sublist _).map _
  exact ⟨fun p hp => hs.fresh p (hsub.subset hp), hs.liveNodup.sublist hsub,
    by simp [HandlerMap.empty, HandlerMap.values], List.nodup_nil⟩

/-! ## Every sequence of calls -/

/-- The calls a client makes: a Load, a Set of a handler it has just created (or of none),
and `UnloadAll`. -/
inductive ExtCall where
  | load (updateType : String)
  | set (updateType : String) (handlerClass : Option HandlerClass)
  | unloadAll

/-- A call's effect on the state; `none` for a double free. -/
def ExtCall.run : ExtCall → ExtManager → Option ExtManager
  | .load updateType, s => some (loadUpdateContentHandlerExtension updateType s).2
  | .set updateType none, s => some (setUpdateContentHandlerExtension updateType none s).2
  | .set updateType (some cls), s =>
    some (setUpdateContentHandlerExtension updateType (some (s.new cls).1) (s.new cls).2).2
  | .unloadAll, s => unloadAllUpdateContentHandlers s

/-- The states some sequence of calls reaches from the start without a double free. -/
inductive ExtReachable : ExtManager → Prop
  | init : ExtReachable .init
  | step {s s' : ExtManager} (c : ExtCall) : ExtReachable s → c.run s = some s' →
      ExtReachable s'

theorem ExtCall.run_wf {s s' : ExtManager} (c : ExtCall) (hs : s.Wf) (h : c.run s = some s') :
    s'.Wf := by
  cases c with
  | load t => cases h; exact hs.load t
  | set t cls =>
    cases cls with
    | none => cases h; exact hs
    | some cls => cases h; exact hs.setNew t cls
  | unloadAll => exact hs.unloadAll h

/-- Over every sequence of calls the map holds distinct live handlers, so the next
`UnloadAll` deletes each of them once and never a handler twice. -/
theorem extReachable_wf {s : ExtManager} (h : ExtReachable s) :
    s.Wf ∧ unloadAllUpdateContentHandlers s = some ⟨.empty,
      s.live.filter (fun o => o.1 ∉ s.contentHandlers.values), s.next⟩ := by
  have hs : s.Wf := by
    induction h with
    | init => exact ExtManager.wf_init
    | step c _ hrun ih => exact c.run_wf ih hrun
  exact ⟨hs, unloadAllUpdateContentHandlers_eq hs⟩

theorem extReachable_wf_after_load :
    let s := (loadUpdateContentHandlerExtension "nuvoton/mcubupdate:1" .init).2
    ExtReachable s ∧ s.Wf ∧ unloadAllUpdateContentHandlers s = some ⟨.empty,
      s.live.filter (fun o => o.1 ∉ s.contentHandlers.values), s.next⟩ :=
  have h := ExtReachable.step (.load "nuvoton/mcubupdate:1") .init rfl
  ⟨h, extReachable_wf h⟩

/-! ## The leaks -/

/-- A Load of a supported type already in the map creates and returns a new handler, not the
cached one, and leaves the map as it was: the new handler is live and held by no entry. -/
theorem load_cached_leaks {s : ExtManager} (hs : s.Wf) {updateType : String}
    {cls : HandlerClass} {h : HandlerPtr} (hcls : handlerClassFor updateType = some cls)
    (hcached : s.contentHandlers.find? updateType = some h) :
    (loadUpdateContentHandlerExtension updateType s).1 = (⟨.generalSuccess, .none⟩, some s.next) ∧
      s.next ≠ h ∧
      (loadUpdateContentHandlerExtension updateType s).2.contentHandlers = s.contentHandlers ∧
      s.next ∈ (loadUpdateContentHandlerExtension updateType s).2.liveAddrs ∧
      s.next ∉ (loadUpdateContentHandlerExtension updateType s).2.contentHandlers.values := by
  obtain ⟨hkey, hval⟩ := s.contentHandlers.mem_keys_of_find? _ hcached
  have hnot : s.next ∉ s.contentHandlers.values :=
    fun hp => ExtManager.next_not_mem hs (hs.mappedLive _ hp)
  rw [loadUpdateContentHandlerExtension_eq, hcls]
  simp only [HandlerMap.emplace_of_mem _ _ _ hkey, true_and]
  exact ⟨fun he => hnot (he ▸ hval), by simp [ExtManager.new, ExtManager.liveAddrs], hnot⟩

theorem load_cached_leaks_mcubupdate :
    let s1 := (loadUpdateContentHandlerExtension "nuvoton/mcubupdate:1" .init).2
    (loadUpdateContentHandlerExtension "nuvoton/mcubupdate:1" s1).1 =
        (⟨.generalSuccess, .none⟩, some s1.next) ∧ s1.next ≠ 0 ∧
      (loadUpdateContentHandlerExtension "nuvoton/mcubupdate:1" s1).2.contentHandlers =
        s1.contentHandlers ∧
      s1.next ∈ (loadUpdateContentHandlerExtension "nuvoton/mcubupdate:1" s1).2.liveAddrs ∧
      s1.next ∉ (loadUpdateContentHandlerExtension "nuvoton/mcubupdate:1" s1).2.contentHandlers.values :=
  load_cached_leaks (ExtManager.wf_init.load _)
    (show handlerClassFor "nuvoton/mcubupdate:1" = some .mcubUpdateHandler by decide) (by decide)

/-- `GetUpdateManifestHandler` for a manifest of version 4 or 5, which every workflow step
calls, returns a handler created by that call, whatever the map holds: two steps of one
workflow never share the manifest handler. -/
theorem getUpdateManifestHandler_fresh (v : Int) (hv : v = 4 ∨ v = 5) (s : ExtManager) :
    (getUpdateManifestHandler v s).1 = (⟨.generalSuccess, .none⟩, some s.next) ∧
      (getUpdateManifestHandler v s).2.next = s.next + 1 := by
  have hcls : handlerClassFor ("microsoft/update-manifest:" ++ toString v) = some .stepsHandler := by
    rcases hv with rfl | rfl <;> decide
  rw [getUpdateManifestHandler, if_pos (show v ≥ 4 by omega), loadUpdateContentHandlerExtension_eq,
    hcls]
  exact ⟨rfl, rfl⟩

end AziotOta

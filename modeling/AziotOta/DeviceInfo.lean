import Mathlib.Logic.Function.Basic
import AziotOta.Machine

/-!
# The device information the agent reports

`DI_GetDeviceInformationValue` calls the getter of a property, which keeps a static
`valueIsDirty`, set at start: while it is set the getter returns a `nu_strdup` copy of the
value and clears it, and afterwards `nullptr`. Nothing sets a flag again, so over any sequence
of requests each property is reported once, at its first request, and a later change of the
configuration file never is. `nu_strdup` does not check its `malloc`.
-/

namespace AziotOta

/-- `DI_DeviceInfoProperty`, declared outside this repository: the properties `simulationMap`
maps. -/
inductive DIDeviceInfoProperty where
  | manufacturer
  | model
  | osName
  | softwareVersion
  | processorArchitecture
  | processorManufacturer
  | totalMemory
  | totalStorage
  deriving DecidableEq, Repr

/-- The build's `ADUC_DEVICEINFO_MANUFACTURER`, `ADUC_DEVICEINFO_MODEL` and
`ADUC_DEVICEINFO_SW_VERSION`, from the user configuration file of the build. -/
structure DIBuildConfig where
  manufacturer : String
  model : String
  swVersion : String

/-- A call of `DI_GetDeviceInformationValue` with what it reads outside this file: the
manufacturer and the model of the configuration file (`none` when `ADUC_ConfigInfo_Init`
fails or the field is `nullptr`), and whether the `malloc` of `nu_strdup` succeeds. -/
structure DIRequest where
  property : DIDeviceInfoProperty
  configManufacturer : Option String
  configModel : Option String
  mallocOk : Bool

/-- The getters' statics: each one's `valueIsDirty`. -/
structure DIState where
  valueIsDirty : DIDeviceInfoProperty → Bool

/-- At start every flag is set. -/
def DIState.init : DIState := ⟨fun _ => true⟩

/-- The flag of `p` cleared. -/
def DIState.clear (s : DIState) (p : DIDeviceInfoProperty) : DIState :=
  ⟨Function.update s.valueIsDirty p false⟩

/-- `nu_strdup`: a copy of `s1` in a new block, written through `NULL` when `malloc` fails. -/
def nuStrdup (mallocOk : Bool) (s1 : String) : Except Fault String :=
  if mallocOk then .ok s1 else .error .nullDeref

/-- `DeviceInfo_GetManufacturer` and `DeviceInfo_GetModel`: the configuration file's value if
it is read and has one, else the build's; the flag is cleared once the copy is made. -/
def configuredValueGetter (p : DIDeviceInfoProperty) (configured : Option String)
    (buildDefault : String) (mallocOk : Bool) (s : DIState) : Except Fault (Option String) × DIState :=
  if !s.valueIsDirty p then (.ok none, s)
  else
    match nuStrdup mallocOk (configured.getD buildDefault) with
    | .ok result => (.ok (some result), s.clear p)
    | .error f => (.error f, s)

/-- The getters of a value fixed at build time: the flag is cleared, then the copy is made. -/
def fixedValueGetter (p : DIDeviceInfoProperty) (value : String) (mallocOk : Bool) (s : DIState) :
    Except Fault (Option String) × DIState :=
  if s.valueIsDirty p then ((nuStrdup mallocOk value).map some, s.clear p)
  else (.ok none, s)

/-- `DeviceInfo_GetManufacturer`. -/
def deviceInfoGetManufacturer (b : DIBuildConfig) (r : DIRequest) (s : DIState) :
    Except Fault (Option String) × DIState :=
  configuredValueGetter .manufacturer r.configManufacturer b.manufacturer r.mallocOk s

/-- `DeviceInfo_GetModel`. -/
def deviceInfoGetModel (b : DIBuildConfig) (r : DIRequest) (s : DIState) :
    Except Fault (Option String) × DIState :=
  configuredValueGetter .model r.configModel b.model r.mallocOk s

/-- `DeviceInfo_GetOsName`. -/
def deviceInfoGetOsName (mallocOk : Bool) (s : DIState) : Except Fault (Option String) × DIState :=
  fixedValueGetter .osName "Mbed OS" mallocOk s

/-- `DeviceInfo_GetSwVersion`. -/
def deviceInfoGetSwVersion (b : DIBuildConfig) (mallocOk : Bool) (s : DIState) :
    Except Fault (Option String) × DIState :=
  fixedValueGetter .softwareVersion b.swVersion mallocOk s

/-- `DeviceInfo_GetProcessorArchitecture`. -/
def deviceInfoGetProcessorArchitecture (mallocOk : Bool) (s : DIState) :
    Except Fault (Option String) × DIState :=
  fixedValueGetter .processorArchitecture "Cortex-M based" mallocOk s

/-- `DeviceInfo_GetProcessorManufacturer`. -/
def deviceInfoGetProcessorManufacturer (mallocOk : Bool) (s : DIState) :
    Except Fault (Option String) × DIState :=
  fixedValueGetter .processorManufacturer "Nuvoton" mallocOk s

/-- `DeviceInfo_GetTotalMemory`. -/
def deviceInfoGetTotalMemory (mallocOk : Bool) (s : DIState) :
    Except Fault (Option String) × DIState :=
  fixedValueGetter .totalMemory "0" mallocOk s

/-- `DeviceInfo_GetTotalStorage`. -/
def deviceInfoGetTotalStorage (mallocOk : Bool) (s : DIState) :
    Except Fault (Option String) × DIState :=
  fixedValueGetter .totalStorage "0" mallocOk s

/-- `DI_GetDeviceInformationValue`: the getter `simulationMap` maps the property to. -/
def diGetDeviceInformationValue (b : DIBuildConfig) (r : DIRequest) (s : DIState) :
    Except Fault (Option String) × DIState :=
  match r.property with
  | .manufacturer => deviceInfoGetManufacturer b r s
  | .model => deviceInfoGetModel b r s
  | .osName => deviceInfoGetOsName r.mallocOk s
  | .softwareVersion => deviceInfoGetSwVersion b r.mallocOk s
  | .processorArchitecture => deviceInfoGetProcessorArchitecture r.mallocOk s
  | .processorManufacturer => deviceInfoGetProcessorManufacturer r.mallocOk s
  | .totalMemory => deviceInfoGetTotalMemory r.mallocOk s
  | .totalStorage => deviceInfoGetTotalStorage r.mallocOk s

/-- The values returned over a sequence of requests, up to the first fault, which stops the
program. -/
def diRun (b : DIBuildConfig) : List DIRequest → DIState → Except Fault (List (Option String))
  | [], _ => .ok []
  | r :: rs, s =>
    match diGetDeviceInformationValue b r s with
    | (.ok value, s') => (diRun b rs s').map (value :: ·)
    | (.error f, _) => .error f

/-! ## What the getters are for -/

/-- The value of a request's property: the configuration file's manufacturer or model if it
has one, else the build's, and the fixed strings for the others. -/
def DIRequest.value (b : DIBuildConfig) (r : DIRequest) : String :=
  match r.property with
  | .manufacturer => r.configManufacturer.getD b.manufacturer
  | .model => r.configModel.getD b.model
  | .osName => "Mbed OS"
  | .softwareVersion => b.swVersion
  | .processorArchitecture => "Cortex-M based"
  | .processorManufacturer => "Nuvoton"
  | .totalMemory => "0"
  | .totalStorage => "0"

/-- Each property reported at its first request, with its value then, and never again;
`seen` holds the properties requested before. -/
def firstRequests (b : DIBuildConfig) (seen : List DIDeviceInfoProperty) :
    List DIRequest → List (Option String)
  | [] => []
  | r :: rs => (if r.property ∈ seen then none else some (r.value b)) ::
      firstRequests b (r.property :: seen) rs

/-- One request whose allocation succeeds: the value while the flag is set, and the flag
cleared; `nullptr` afterwards. -/
theorem diGetDeviceInformationValue_ok (b : DIBuildConfig) {r : DIRequest} (hm : r.mallocOk = true)
    (s : DIState) :
    diGetDeviceInformationValue b r s =
      if s.valueIsDirty r.property then (.ok (some (r.value b)), s.clear r.property)
      else (.ok none, s) := by
  rcases r with ⟨p, cm, cmo, _⟩
  subst hm
  cases p <;> cases hd : s.valueIsDirty _ <;>
    simp [diGetDeviceInformationValue, deviceInfoGetManufacturer, deviceInfoGetModel,
      deviceInfoGetOsName, deviceInfoGetSwVersion, deviceInfoGetProcessorArchitecture,
      deviceInfoGetProcessorManufacturer, deviceInfoGetTotalMemory, deviceInfoGetTotalStorage,
      configuredValueGetter, fixedValueGetter, nuStrdup, DIRequest.value, hd, Except.map]

/-- A failed allocation at a request whose flag is set is a write through `NULL`. -/
theorem diGetDeviceInformationValue_fault (b : DIBuildConfig) {r : DIRequest}
    (hm : r.mallocOk = false) {s : DIState} (hd : s.valueIsDirty r.property = true) :
    (diGetDeviceInformationValue b r s).1 = .error .nullDeref := by
  rcases r with ⟨p, cm, cmo, _⟩
  subst hm
  cases p <;>
    simp_all [diGetDeviceInformationValue, deviceInfoGetManufacturer, deviceInfoGetModel,
      deviceInfoGetOsName, deviceInfoGetSwVersion, deviceInfoGetProcessorArchitecture,
      deviceInfoGetProcessorManufacturer, deviceInfoGetTotalMemory, deviceInfoGetTotalStorage,
      configuredValueGetter, fixedValueGetter, nuStrdup, Except.map]

/-- Over every sequence of requests whose allocations succeed, `DI_GetDeviceInformationValue`
reports each property once, at its first request, with the value it has then, and returns
`nullptr` for it ever after: a later change of the configuration file is never reported. -/
theorem diRun_first_requests (b : DIBuildConfig) (rs : List DIRequest)
    (hm : ∀ r ∈ rs, r.mallocOk = true) :
    diRun b rs DIState.init = .ok (firstRequests b [] rs) := by
  suffices ∀ (s : DIState) (seen : List DIDeviceInfoProperty),
      (∀ p, s.valueIsDirty p = !decide (p ∈ seen)) →
      diRun b rs s = .ok (firstRequests b seen rs) from this _ [] fun _ => rfl
  induction rs with
  | nil => exact fun _ _ _ => rfl
  | cons r rs ih =>
    intro s seen hs
    have hrs : ∀ r' ∈ rs, r'.mallocOk = true := fun r' h' => hm r' (List.mem_cons_of_mem _ h')
    rw [diRun, diGetDeviceInformationValue_ok b (hm r (List.mem_cons_self _ _)), firstRequests,
      hs r.property]
    by_cases hseen : r.property ∈ seen
    · -- requested before: `nullptr`, and nothing changes
      have hs' : ∀ p, s.valueIsDirty p = !decide (p ∈ r.property :: seen) := fun p => by
        by_cases hp : p = r.property <;> simp [hp, hs, hseen]
      simp [hseen, ih hrs s _ hs', Except.map]
    · -- the first request: the value, and the flag cleared
      have hs' : ∀ p, (s.clear r.property).valueIsDirty p =
          !decide (p ∈ r.property :: seen) := fun p => by
        by_cases hp : p = r.property <;> simp [DIState.clear, hp, hs]
      simp [hseen, ih hrs _ _ hs', Except.map]

/-- The manufacturer asked for twice, the configuration file giving one only at the second
request: the build's value is reported, the later one never. -/
theorem diRun_first_requests_manufacturer :
    diRun ⟨"Contoso", "Surface Book 2", "1.0"⟩
      [⟨.manufacturer, none, none, true⟩, ⟨.manufacturer, some "Nuvoton", none, true⟩]
      DIState.init = .ok [some "Contoso", none] :=
  (diRun_first_requests _ _ (by decide)).trans rfl

end AziotOta

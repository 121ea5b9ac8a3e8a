import Mathlib.Algebra.Group.Int.Defs
import Mathlib.Algebra.Group.Nat.Defs
import Mathlib.Data.List.Nodup

/-!
# The EGL configs of the guest

The guest is shown the configs of the host that have a pbuffer and colours. It asks for those that meet its constraints
with an array of attributes and values, which is translated for the host. What the host answers is looked up in the list
by its id.
-/

namespace AnboxReboxed.Emugl

abbrev EGLint := Int32

def EGL_BUFFER_SIZE : EGLint := 0x3020
def EGL_ALPHA_SIZE : EGLint := 0x3021
def EGL_BLUE_SIZE : EGLint := 0x3022
def EGL_GREEN_SIZE : EGLint := 0x3023
def EGL_RED_SIZE : EGLint := 0x3024
def EGL_DEPTH_SIZE : EGLint := 0x3025
def EGL_STENCIL_SIZE : EGLint := 0x3026
def EGL_CONFIG_CAVEAT : EGLint := 0x3027
def EGL_CONFIG_ID : EGLint := 0x3028
def EGL_LEVEL : EGLint := 0x3029
def EGL_MAX_PBUFFER_HEIGHT : EGLint := 0x302A
def EGL_MAX_PBUFFER_PIXELS : EGLint := 0x302B
def EGL_MAX_PBUFFER_WIDTH : EGLint := 0x302C
def EGL_NATIVE_RENDERABLE : EGLint := 0x302D
def EGL_NATIVE_VISUAL_ID : EGLint := 0x302E
def EGL_NATIVE_VISUAL_TYPE : EGLint := 0x302F
def EGL_SAMPLES : EGLint := 0x3031
def EGL_SAMPLE_BUFFERS : EGLint := 0x3032
def EGL_SURFACE_TYPE : EGLint := 0x3033
def EGL_TRANSPARENT_TYPE : EGLint := 0x3034
def EGL_TRANSPARENT_BLUE_VALUE : EGLint := 0x3035
def EGL_TRANSPARENT_GREEN_VALUE : EGLint := 0x3036
def EGL_TRANSPARENT_RED_VALUE : EGLint := 0x3037
def EGL_NONE : EGLint := 0x3038
def EGL_BIND_TO_TEXTURE_RGB : EGLint := 0x3039
def EGL_BIND_TO_TEXTURE_RGBA : EGLint := 0x303A
def EGL_MIN_SWAP_INTERVAL : EGLint := 0x303B
def EGL_MAX_SWAP_INTERVAL : EGLint := 0x303C
def EGL_LUMINANCE_SIZE : EGLint := 0x303D
def EGL_ALPHA_MASK_SIZE : EGLint := 0x303E
def EGL_COLOR_BUFFER_TYPE : EGLint := 0x303F
def EGL_RENDERABLE_TYPE : EGLint := 0x3040
def EGL_CONFORMANT : EGLint := 0x3042
def EGL_RECORDABLE_ANDROID : EGLint := 0x3142
def EGL_FRAMEBUFFER_TARGET_ANDROID : EGLint := 0x3147

def EGL_PBUFFER_BIT : EGLint := 1
def EGL_WINDOW_BIT : EGLint := 4

def kConfigAttributes : List EGLint :=
  [EGL_DEPTH_SIZE, EGL_STENCIL_SIZE, EGL_RENDERABLE_TYPE, EGL_SURFACE_TYPE, EGL_CONFIG_ID, EGL_BUFFER_SIZE,
    EGL_ALPHA_SIZE, EGL_BLUE_SIZE, EGL_GREEN_SIZE, EGL_RED_SIZE, EGL_CONFIG_CAVEAT, EGL_LEVEL, EGL_MAX_PBUFFER_HEIGHT,
    EGL_MAX_PBUFFER_PIXELS, EGL_MAX_PBUFFER_WIDTH, EGL_NATIVE_RENDERABLE, EGL_NATIVE_VISUAL_ID, EGL_NATIVE_VISUAL_TYPE,
    EGL_SAMPLES, EGL_SAMPLE_BUFFERS, EGL_TRANSPARENT_TYPE, EGL_TRANSPARENT_BLUE_VALUE, EGL_TRANSPARENT_GREEN_VALUE,
    EGL_TRANSPARENT_RED_VALUE, EGL_BIND_TO_TEXTURE_RGB, EGL_BIND_TO_TEXTURE_RGBA, EGL_MIN_SWAP_INTERVAL,
    EGL_MAX_SWAP_INTERVAL, EGL_LUMINANCE_SIZE, EGL_ALPHA_MASK_SIZE, EGL_COLOR_BUFFER_TYPE, EGL_CONFORMANT]

/-- EGL on the host, with its configs. A call that fails has no result. -/
structure EglHost (κ : Type) where
  eglGetConfigs : Option (List κ)
  eglGetConfigAttrib : κ → EGLint → EGLint
  /-- All that match the attributes. The caller takes as many of them as it has room for. -/
  eglChooseConfig : List EGLint → Option (List κ)

variable {κ : Type}

def isCompatibleHostConfig (egl : EglHost κ) (config : κ) : Bool :=
  egl.eglGetConfigAttrib config EGL_SURFACE_TYPE &&& EGL_PBUFFER_BIT != 0 &&
    egl.eglGetConfigAttrib config EGL_RED_SIZE != 0 && egl.eglGetConfigAttrib config EGL_GREEN_SIZE != 0 &&
      egl.eglGetConfigAttrib config EGL_BLUE_SIZE != 0

structure RendererConfig where
  mAttribValues : List EGLint

/-- The constructor. -/
def RendererConfig.new (egl : EglHost κ) (hostConfig : κ) : RendererConfig where
  mAttribValues := kConfigAttributes.map fun name =>
    let value := egl.eglGetConfigAttrib hostConfig name
    if name = EGL_SURFACE_TYPE then value ||| EGL_WINDOW_BIT else value

def RendererConfig.getConfigId (config : RendererConfig) : EGLint := config.mAttribValues.getD 4 0

structure RendererConfigList where
  mConfigs : List RendererConfig

namespace RendererConfigList

/-- The constructor. -/
def new (egl : EglHost κ) : RendererConfigList where
  mConfigs := ((egl.eglGetConfigs.getD []).filter (isCompatibleHostConfig egl)).map (RendererConfig.new egl)

/-! ## The translation of the query -/

/-- The whole words in the array of the guest. -/
def words : List UInt8 → List EGLint
  | a :: b :: c :: d :: rest =>
    Int32.ofNat (a.toNat + 2 ^ 8 * b.toNat + 2 ^ 16 * c.toNat + 2 ^ 24 * d.toNat) :: words rest
  | _ => []

/-- The loop over `attribs`, with `hostAttribs` and `hasSurfaceType`. There is no result when it reads behind the
array. -/
def translateAttribs : List EGLint → List EGLint → Bool → Option (List EGLint × Bool)
  | [], _, _ => none
  | name :: rest, hostAttribs, hasSurfaceType =>
    if name = EGL_NONE then some (hostAttribs, hasSurfaceType)
    else
      match rest with
      | [] => none
      | value :: rest =>
        if name = EGL_RECORDABLE_ANDROID ∨ name = EGL_FRAMEBUFFER_TARGET_ANDROID then
          translateAttribs rest hostAttribs hasSurfaceType
        else if name = EGL_SURFACE_TYPE then translateAttribs rest (hostAttribs ++ [name, EGL_PBUFFER_BIT]) true
        else translateAttribs rest (hostAttribs ++ [name, value]) hasSurfaceType

/-- The array for the host. -/
def hostAttribs (attribs : List EGLint) : Option (List EGLint) :=
  (translateAttribs attribs [] false).map fun (hostAttribs, hasSurfaceType) =>
    (if hasSurfaceType then hostAttribs else hostAttribs ++ [EGL_SURFACE_TYPE, EGL_PBUFFER_BIT]) ++ [EGL_NONE]

/-! ## The search -/

/-- What is returned, and what is written to `configs`: at which place, and the index. -/
structure Choice where
  result : Nat := 0
  writes : List (Nat × Nat) := []

/-- The first config with the id. -/
def indexOf (list : RendererConfigList) (id : EGLint) : Option Nat :=
  list.mConfigs.findIdx? fun config => config.getConfigId = id

/-- The loop over `matchedConfigs`; `configs` says that there is a place to write to. -/
def matchConfigs (egl : EglHost κ) (list : RendererConfigList) (configs : Bool) (configsSize : EGLint) :
    List κ → Choice → Choice
  | [], c => c
  | config :: rest, c =>
    if configs ∧ 0 < configsSize.toInt ∧ configsSize.toInt ≤ c.result then c
    else if !isCompatibleHostConfig egl config then matchConfigs egl list configs configsSize rest c
    else
      match list.indexOf (egl.eglGetConfigAttrib config EGL_CONFIG_ID) with
      | none => matchConfigs egl list configs configsSize rest c
      | some k =>
        matchConfigs egl list configs configsSize rest
          { result := c.result + 1
            writes := if configs ∧ (c.result : Int) < configsSize.toInt then c.writes ++ [(c.result, k)] else c.writes }

/-- `matchedConfigs`, when the host is asked with these attributes and there is room for all its configs. -/
def matchedConfigs (egl : EglHost κ) (hostConfigs : List κ) (hostAttribs : List EGLint) : List κ :=
  ((egl.eglChooseConfig hostAttribs).getD []).take hostConfigs.length

def chooseConfig (egl : EglHost κ) (list : RendererConfigList) (attribs : List EGLint) (configs : Bool)
    (configsSize : EGLint) : Option Choice :=
  match egl.eglGetConfigs with
  | none => some {}
  | some hostConfigs =>
    (hostAttribs attribs).map fun hostAttribs =>
      list.matchConfigs egl configs configsSize (matchedConfigs egl hostConfigs hostAttribs) {}

end RendererConfigList

open RendererConfigList

/-- The array has `attribs_size` bytes. There is no list without a renderer, and `configs` is null when the guest has
room for nothing. -/
def rcChooseConfig (egl : EglHost κ) (renderer : Option RendererConfigList) (attribs : List UInt8) (configs : Bool)
    (configs_size : UInt32) : Option Choice :=
  match renderer with
  | none => some {}
  | some list =>
    if attribs = [] then some {} else list.chooseConfig egl (words attribs) configs configs_size.toInt32

/-! ## What a query is for -/

/-- What the guest constrains, up to the first attribute that is `EGL_NONE`, if there is one. -/
def constraints : List EGLint → Option (List (EGLint × EGLint))
  | [] => none
  | [name] => if name = EGL_NONE then some [] else none
  | name :: value :: rest =>
    if name = EGL_NONE then some [] else (constraints rest).map ((name, value) :: ·)

def isAndroidOnly (c : EGLint × EGLint) : Bool := c.1 = EGL_RECORDABLE_ANDROID ∨ c.1 = EGL_FRAMEBUFFER_TARGET_ANDROID

/-- The surface type is that of a pbuffer. -/
def backed (c : EGLint × EGLint) : EGLint × EGLint := if c.1 = EGL_SURFACE_TYPE then (c.1, EGL_PBUFFER_BIT) else c

/-- What the host is asked for. -/
def hostConstraints (cs : List (EGLint × EGLint)) : List (EGLint × EGLint) :=
  let kept := (cs.filter fun c => !isAndroidOnly c).map backed
  if cs.any fun c => c.1 = EGL_SURFACE_TYPE then kept else kept ++ [(EGL_SURFACE_TYPE, EGL_PBUFFER_BIT)]

def hostQuery (cs : List (EGLint × EGLint)) : List EGLint :=
  (hostConstraints cs).flatMap (fun c => [c.1, c.2]) ++ [EGL_NONE]

/-- What the host returns for the constraints of the guest. -/
def answers (egl : EglHost κ) (cs : List (EGLint × EGLint)) : List κ :=
  matchedConfigs egl (egl.eglGetConfigs.getD []) (hostQuery cs)

def configId (egl : EglHost κ) (config : κ) : EGLint := egl.eglGetConfigAttrib config EGL_CONFIG_ID

/-- The query is answered: what is written are the first entries of `configs`, they are counted, and each is the index
of another config that the host has returned. When `configs` is null, the matches are counted. -/
structure Answered (egl : EglHost κ) (renderer : Option RendererConfigList) (attribs : List UInt8) (configs : Bool)
    (configs_size : UInt32) (c : Choice) : Prop where
  places : c.writes.map Prod.fst = List.range c.writes.length
  length_le : c.writes.length ≤ configs_size.toNat
  result : 0 < configs_size → configs = true → c.result = c.writes.length
  distinct : (c.writes.map Prod.snd).Nodup
  entries : ∀ k ∈ c.writes.map Prod.snd, ∃ list ∈ renderer, ∃ config, list.mConfigs[k]? = some config ∧
    ∃ cs, constraints (words attribs) = some cs ∧ config.getConfigId ∈ (answers egl cs).map (configId egl)

/-- The index of a config that the host returns, if the list has it. -/
def index (egl : EglHost κ) (list : RendererConfigList) (config : κ) : Option Nat :=
  if isCompatibleHostConfig egl config then list.indexOf (configId egl config) else none

/-- What the host returns that the list has, too. -/
def usable (egl : EglHost κ) (list : RendererConfigList) (cs : List (EGLint × EGLint)) : List κ :=
  (answers egl cs).filter fun config => (index egl list config).isSome

/-- The query makes sense: it ends in the array, the size of `configs` is not a negative number, and the host does not
return two configs of one id. -/
structure Sensible (egl : EglHost κ) (list : RendererConfigList) (attribs : List UInt8) (configs : Bool)
    (configs_size : UInt32) (cs : List (EGLint × EGLint)) : Prop where
  ends : constraints (words attribs) = some cs
  room : configs = true → usable egl list cs = [] ∨ configs_size.toNat < 2 ^ 31
  distinct : configs = true → (((usable egl list cs).take configs_size.toNat).map (configId egl)).Nodup

/-- As EGL has it: a config is returned once, and has an id of its own. -/
def EglHost.Lawful (egl : EglHost κ) : Prop :=
  ∀ query, ∀ configs ∈ egl.eglChooseConfig query, (configs.map (configId egl)).Nodup

/-- The host is asked something that makes sense, if it is asked. -/
def Handled (egl : EglHost κ) (renderer : Option RendererConfigList) (attribs : List UInt8) (configs : Bool)
    (configs_size : UInt32) : Prop :=
  ∀ list ∈ renderer, attribs ≠ [] → egl.eglGetConfigs ≠ none → ∃ cs, Sensible egl list attribs configs configs_size cs

end AnboxReboxed.Emugl

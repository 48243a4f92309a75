/-!
# Functions that other subsystems own

Some functions of the driver are wrapped elsewhere and get no wrapper here.  Each
belongs to one subsystem, and `ownerOf?` finds it.
-/

namespace CallBridge.Policy

/-- Subsystems that wrap functions of their own. -/
inductive Owner where
  | contexts
  | fonts
  | layers
  | pixelFormats
  deriving DecidableEq, Repr

namespace Owner

/-- What a subsystem does. -/
def describe : Owner → String
  | contexts => "WGL context management"
  | fonts => "WGL font rendering"
  | layers => "WGL layer planes"
  | pixelFormats => "GDI pixel formats"

/-- The functions that a subsystem owns. -/
def functions : Owner → List String
  | contexts => [
    "wglCopyContext", "wglCreateContext", "wglCreateLayerContext", "wglDeleteContext",
    "wglGetCurrentContext", "wglGetCurrentDC", "wglGetProcAddress", "wglMakeCurrent",
    "wglShareLists", "SwapBuffers", "wglSwapMultipleBuffers"]
  | fonts => [
    "wglUseFontBitmapsA", "wglUseFontBitmapsW", "wglUseFontBitmaps", "wglUseFontOutlinesA",
    "wglUseFontOutlinesW", "wglUseFontOutlines"]
  | layers => [
    "wglDescribeLayerPlane", "wglSetLayerPaletteEntries", "wglGetLayerPaletteEntries",
    "wglRealizeLayerPalette", "wglSwapLayerBuffers"]
  | pixelFormats => [
    "ChoosePixelFormat", "DescribePixelFormat", "GetEnhMetaFilePixelFormat", "GetPixelFormat",
    "SetPixelFormat"]

/-- All subsystems. -/
def all : List Owner :=
  [contexts, fonts, layers, pixelFormats]

end Owner

/-- The owned functions with their owners, in order. -/
def ownedFunctions : List (String × Owner) :=
  Owner.all.flatMap fun owner => owner.functions.map fun name => (name, owner)

/-- The names of the owned functions, in order. -/
def ownedNames : List String :=
  ownedFunctions.map Prod.fst

/-- The subsystem that owns a function. -/
def ownerOf? (name : String) : Option Owner :=
  (ownedFunctions.find? (·.1 == name)).map Prod.snd

end CallBridge.Policy

/-!
# Presets

A preset is a name for the size of a frame, after the place where a slideshow is shown.
-/

set_option autoImplicit false

namespace Slidecast

/-- The size of a frame in pixels. -/
structure FrameSize where
  width : Nat
  height : Nat
  deriving DecidableEq

/-- All presets. -/
def presets : List (String × FrameSize) :=
  [ ("sd", ⟨640, 480⟩),
    ("hd", ⟨1280, 720⟩),
    ("full-hd", ⟨1920, 1080⟩),
    ("squared", ⟨1080, 1080⟩),
    ("youtube-short", ⟨1080, 1920⟩),
    ("instagram-story", ⟨1080, 1920⟩),
    ("instagram-post", ⟨1080, 1080⟩),
    ("instagram-reel", ⟨1080, 1920⟩),
    ("tiktok", ⟨1080, 1920⟩),
    ("twitter-landscape", ⟨1200, 675⟩),
    ("twitter-portrait", ⟨1080, 1350⟩),
    ("twitter-square", ⟨1080, 1080⟩),
    ("facebook-video", ⟨1080, 1920⟩),
    ("facebook-story", ⟨1080, 1920⟩),
    ("facebook-post", ⟨1080, 1080⟩),
    ("snapchat", ⟨1080, 1920⟩) ]

/-- The size that a preset stands for. -/
def preset? (name : String) : Option FrameSize := presets.lookup name

end Slidecast

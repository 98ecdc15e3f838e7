import Lifecycle.Proofs.Extraction

namespace Lifecycle

open Text

namespace Method

end Method

namespace ImplBlock

variable {b : ImplBlock} {subject : ClassPath}

end ImplBlock

namespace ImplBlock

end ImplBlock

end Lifecycle

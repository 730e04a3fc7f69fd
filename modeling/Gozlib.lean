import Gozlib.Pool.Safety
import Gozlib.Pool.Progress
import Gozlib.Pool.Teardown
import Gozlib.Pool.Lifecycle
import Gozlib.Stream.Defects
import Gozlib.Library.Recycle
import Gozlib.Library.Bridge
import Gozlib.Library.Destructor

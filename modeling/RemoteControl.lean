import RemoteControl.Activation
import RemoteControl.Arrangement
import RemoteControl.Atomicity
import RemoteControl.Attempts
import RemoteControl.Broadcasts
import RemoteControl.Closures
import RemoteControl.Columns
import RemoteControl.Delivery
import RemoteControl.Hearing
import RemoteControl.Holdings
import RemoteControl.ImageEncoder
import RemoteControl.Indentation
import RemoteControl.Interaction
import RemoteControl.Interfaces
import RemoteControl.Leftovers
import RemoteControl.Lookups
import RemoteControl.Ownership
import RemoteControl.Proxy
import RemoteControl.Quotes
import RemoteControl.Registration
import RemoteControl.Residence
import RemoteControl.Restoration
import RemoteControl.Retries
import RemoteControl.Shutdown
import RemoteControl.Silence
import RemoteControl.Splitting
import RemoteControl.Succession
import RemoteControl.Verdict
import RemoteControl.Whitespace
